import IndySdk.Base58
import IndySdk.Obligations
import IndySdk.PaymentsCoherence
import IndySdk.WalletRuns
import Mathlib.Tactic.Abel

/-!
# Every payment command calls back once

Whatever the order of commands, replies and returning entry points, a command waits for the one
reply of the plugin that was asked for it, and gets the result of that reply. The closure for a
reply is stored before the entry point is called, so it stays where an entry point fails.
-/

namespace IndySdk.Payments

open AssocMap AList Machine Multiset
open Wallet (WalletCrypto)

/-! ### What is owed -/

def PaymentsCommand.cb? : PaymentsCommand → Option ℕ
  | .user cmd => some cmd.cb
  | .ack _ => none

def owedIn (s : PaymentsExecutor) : Multiset ℕ :=
  (s.queue.filterMap PaymentsCommand.cb? : Multiset ℕ) +
    ((s.calling.toList.map (fun entered => entered.callback.cb) : Multiset ℕ) +
      (s.pendingCallbacks.values.map PendingCallback.cb : Multiset ℕ))

def owed (s : PaymentsSystem) : Multiset ℕ := owedIn s.executor

def due (input : PaymentsInput) : Multiset ℕ :=
  match input.event with
  | .submit cmd => {cmd.cb}
  | _ => 0

def settled (effects : List Effect) : Multiset ℕ := (answers effects).map Prod.fst

/-- A command calls back or asks, a reply is queued, and an acknowledgement calls back the command
that asked with the result of the reply. -/
def Delivered (crates : PaymentsCrates) (wc : WalletCrypto) (s : PaymentsSystem)
    (input : PaymentsInput) : Prop :=
  let next := (paymentsMachine crates wc).step input s
  match input.event with
  | .execute =>
    match s.executor.calling, s.executor.queue with
    | none, .user cmd :: _ =>
      (∃ answer, answers next.1 = [(cmd.cb, answer)]) ∨
        ∃ entered, Asks crates input.wallets s.executor.methods input.nextId cmd entered ∧
          next.1 = [.callPlugin entered.call] ∧
          next.2.requests.lookup input.nextId = some ⟨entered, none⟩
    | none, .ack ack :: _ =>
      ∃ request, s.requests.lookup ack.cmdHandle = some request ∧
        request.reply = some ack.result ∧
        answers next.1 = [(request.entered.callback.cb, request.entered.callback.answer
          (received input.wallets request.entered.call.builder ack.result))]
    | _, _ => True
  | .reply cmdHandle err cStr =>
    ∃ request metadata, s.requests.lookup cmdHandle = some request ∧
      readReply cStr = some metadata ∧ next.2.executor.queue = s.executor.queue ++
        [.ack ⟨request.entered.call.builder, cmdHandle, err.toResult metadata⟩]
  | _ => True

/-- One step of a run in which every command gets its own result. -/
structure Resolved (crates : PaymentsCrates) (wc : WalletCrypto) (s : PaymentsSystem)
    (input : PaymentsInput) : Prop where
  alive : ((paymentsMachine crates wc).step input s).2.executor.panicked = false
  balanced : (paymentsMachine crates wc).Balanced owed due settled s input
  delivered : Delivered crates wc s input

variable {crates : PaymentsCrates} {wc : WalletCrypto} {s : PaymentsSystem}
  {input : PaymentsInput}

section

variable {executor : PaymentsExecutor} {queue : List PaymentsCommand} {entered : Entered}

theorem owedIn_submit (cmd : UserCommand) :
    owedIn (executor.send (.user cmd)) = owedIn executor + {cmd.cb} := by
  simp only [owedIn, PaymentsExecutor.send, List.filterMap_append, ← coe_add]
  rw [add_right_comm]
  rfl

theorem owedIn_user {cmd : UserCommand} (h : executor.queue = .user cmd :: queue) :
    owedIn executor = {cmd.cb} + owedIn { executor with queue := queue } := by
  have hcbs : (PaymentsCommand.user cmd :: queue).filterMap PaymentsCommand.cb? =
      cmd.cb :: queue.filterMap PaymentsCommand.cb? := rfl
  simp only [owedIn, h]
  rw [hcbs, ← cons_coe, ← singleton_add, add_assoc]

theorem owedIn_ack {ack : Ack} (h : executor.queue = .ack ack :: queue) :
    owedIn executor = owedIn { executor with queue := queue } := by
  simp only [owedIn, h]
  rfl

theorem owedIn_send_ack (ack : Ack) : owedIn (executor.send (.ack ack)) = owedIn executor := by
  have hcbs : [PaymentsCommand.ack ack].filterMap PaymentsCommand.cb? = [] := rfl
  simp only [owedIn, PaymentsExecutor.send, List.filterMap_append]
  rw [hcbs, List.append_nil]

theorem owedIn_entered (h : executor.calling = some entered) :
    owedIn executor = {entered.callback.cb} + owedIn { executor with calling := none } := by
  simp only [owedIn, h, Option.toList_some, Option.toList_none, List.map_singleton, List.map_nil,
    coe_singleton, coe_nil]
  abel

theorem owedIn_insert {cmdHandle : ℤ} {callback : PendingCallback}
    (h : cmdHandle ∉ executor.pendingCallbacks) :
    owedIn { executor with
      pendingCallbacks := executor.pendingCallbacks.insert cmdHandle callback } =
      {callback.cb} + owedIn executor := by
  simp only [owedIn]
  rw [values_insert_of_notMem h, List.map_cons, ← cons_coe,
    ← singleton_add]
  abel

theorem owedIn_erase {cmdHandle : ℤ} {callback : PendingCallback}
    (h : executor.pendingCallbacks.lookup cmdHandle = some callback) :
    owedIn executor = {callback.cb} + owedIn { executor with
      pendingCallbacks := executor.pendingCallbacks.erase cmdHandle } := by
  simp only [owedIn]
  rw [coe_eq_coe.mpr ((values_perm_erase h).map PendingCallback.cb),
    List.map_cons, ← cons_coe, ← singleton_add]
  abel

end

/-! ### Steps -/

/-- What a step does for the run that it belongs to. -/
structure Kept (crates : PaymentsCrates) (wc : WalletCrypto) (s : PaymentsSystem)
    (input : PaymentsInput) : Prop where
  resolved : Resolved crates wc s input
  coherent : ((paymentsMachine crates wc).step input s).2.Coherent
  tidy_iff : ((paymentsMachine crates wc).step input s).2.Tidy ↔ s.Tidy ∧ ¬Refuses s input

theorem step_eq (h : s.executor.panicked = false) :
    (paymentsMachine crates wc).step input s = ((s.executor.step crates wc input).1,
      ⟨(s.executor.step crates wc input).2,
        requestsAfter input.event s (s.executor.step crates wc input).2⟩) := by
  simp only [paymentsMachine, h, Bool.false_eq_true, if_false]

theorem not_refuses (h : ∀ err, input.event = .returned err → err = .success ∨
    s.executor.calling = none) : ¬Refuses s input := by
  rintro ⟨err, entered, hevent, herr, hcalling⟩
  obtain hsuccess | hnone := h err hevent
  · exact herr hsuccess
  · rw [hnone] at hcalling
    cases hcalling

theorem resolved_of_eq {effects : List Effect} {next : PaymentsSystem}
    (hnext : (paymentsMachine crates wc).step input s = (effects, next)) (hcoherent : next.Coherent)
    (hbalanced : owedIn s.executor + due input = settled effects + owedIn next.executor)
    (hdelivered : Delivered crates wc s input) : Resolved crates wc s input := by
  refine ⟨?_, ?_, hdelivered⟩
  · rw [hnext]
    exact hcoherent.alive
  · rw [Machine.Balanced, hnext]
    exact hbalanced

theorem kept_of_eq {effects : List Effect} {next : PaymentsSystem}
    (hnext : (paymentsMachine crates wc).step input s = (effects, next)) (hcoherent : next.Coherent)
    (hbalanced : owedIn s.executor + due input = settled effects + owedIn next.executor)
    (htidy : next.Tidy ↔ s.Tidy ∧ ¬Refuses s input) (hdelivered : Delivered crates wc s input) :
    Kept crates wc s input := by
  refine ⟨resolved_of_eq hnext hcoherent hbalanced hdelivered, ?_, ?_⟩
  · rw [hnext]
    exact hcoherent
  · rw [hnext]
    exact htidy

theorem submit_kept {cmd : UserCommand} (h : s.Coherent) (hevent : input.event = .submit cmd) :
    Kept crates wc s input := by
  have hnext : (paymentsMachine crates wc).step input s =
      ([], ⟨s.executor.send (.user cmd), s.requests⟩) := by
    simp only [step_eq h.alive, PaymentsExecutor.step, requestsAfter, hevent]
  have hcalm : ¬Refuses s input := by
    apply not_refuses
    intro err he
    rw [hevent] at he
    cases he
  apply kept_of_eq hnext
  · exact h.congr rfl rfl rfl rfl (acks_append_user s.executor.queue cmd) rfl
  · dsimp only
    rw [owedIn_submit, due, hevent]
    exact (zero_add _).symm
  · exact ⟨fun htidy => ⟨htidy, hcalm⟩, fun htidy => htidy.1⟩
  · simp only [Delivered, hevent]

theorem idle_kept (h : s.Coherent)
    (hnext : (paymentsMachine crates wc).step input s = ([], s))
    (hdue : due input = 0) (hcalm : ¬Refuses s input) (hdelivered : Delivered crates wc s input) :
    Kept crates wc s input := by
  apply kept_of_eq hnext h
  · rw [hdue]
    exact add_comm _ _
  · exact ⟨fun htidy => ⟨htidy, hcalm⟩, fun htidy => htidy.1⟩
  · exact hdelivered

variable {cmdHandle : ℤ} {entered : Entered} {queue : List PaymentsCommand} {err : ErrorCode}

theorem PaymentsSystem.tidy_enter (hnew : cmdHandle ∉ s.executor.callbacks) :
    PaymentsSystem.Tidy ⟨{ s.executor with
      queue := queue
      callbacks := s.executor.callbacks.insert cmdHandle entered.call.builder
      calling := some entered }, s.requests.insert cmdHandle ⟨entered, none⟩⟩ ↔ s.Tidy := by
  constructor
  · intro h other hother
    obtain ⟨request, hrequest, hopen⟩ := h other ((mem_insert _).mpr (.inr hother))
    obtain ⟨rfl, _⟩ | ⟨_, hrequest⟩ := lookup_insert_eq_some.mp hrequest
    · exact absurd hother hnew
    · exact ⟨request, hrequest, hopen⟩
  · intro h other hother
    by_cases he : other = cmdHandle
    · exact ⟨⟨entered, none⟩, lookup_insert_eq_some.mpr (.inl ⟨he, rfl⟩), rfl⟩
    · obtain hother | hother := (mem_insert _).mp hother
      · exact absurd hother he
      · obtain ⟨request, hrequest, hopen⟩ := h other hother
        exact ⟨request, lookup_insert_eq_some.mpr (.inr ⟨he, hrequest⟩), hopen⟩

theorem user_kept {cmd : UserCommand} (h : s.Coherent) (hevent : input.event = .execute)
    (hcalling : s.executor.calling = none) (hqueue : s.executor.queue = .user cmd :: queue)
    (hpermitted : Permitted wc s input) :
    Kept crates wc s input := by
  simp only [Permitted, hevent] at hpermitted
  obtain ⟨hnew, hfree, hlistable⟩ := hpermitted hcalling cmd queue hqueue
  have hcalm : ¬Refuses s input := not_refuses (fun _ _ => .inr hcalling)
  have hacks : acks s.executor.queue = acks queue := by
    rw [hqueue]
    rfl
  have hdue : due input = 0 := by
    rw [due, hevent]
  have hstep : s.executor.step crates wc input =
      execute crates wc input.wallets input.nextId { s.executor with queue := queue } cmd := by
    simp only [PaymentsExecutor.step, hevent, hcalling, hqueue]
  obtain ⟨methods, answer, hexecute⟩ | ⟨entered, hasks, hexecute⟩ :=
    @execute_cases crates wc input.wallets input.nextId { s.executor with queue := queue } cmd
      hlistable
  · have hnext : (paymentsMachine crates wc).step input s = ([.callback cmd.cb answer],
        ⟨{ s.executor with
          queue := queue
          methods := methods }, s.requests⟩) := by
      rw [step_eq h.alive, hstep, hexecute]
      simp only [requestsAfter, hevent, hcalling, hqueue, PaymentsExecutor.call]
    apply kept_of_eq hnext
    · exact h.congr rfl rfl rfl rfl hacks.symm rfl
    · rw [hdue, add_zero]
      exact owedIn_user hqueue
    · exact ⟨fun htidy => ⟨htidy, hcalm⟩, fun htidy => htidy.1⟩
    · simp only [Delivered, hevent, hcalling, hqueue, hnext]
      exact .inl ⟨answer, rfl⟩
  · have hnext : (paymentsMachine crates wc).step input s = ([.callPlugin entered.call],
        ⟨{ s.executor with
          queue := queue
          callbacks := s.executor.callbacks.insert input.nextId entered.call.builder
          calling := some entered }, s.requests.insert input.nextId ⟨entered, none⟩⟩) := by
      rw [step_eq h.alive, hstep, hexecute]
      simp only [requestsAfter, hevent, hcalling, hqueue, hasks.cmdHandle_eq]
    apply kept_of_eq hnext
    · exact h.enter hcalling hacks hasks.cmdHandle_eq hnew
    · have hinside : owedIn { s.executor with
          queue := queue
          callbacks := s.executor.callbacks.insert input.nextId entered.call.builder
          calling := some entered } =
          {cmd.cb} + owedIn { s.executor with queue := queue } := by
        rw [owedIn_entered rfl, hasks.cb_eq, owedIn, owedIn, hcalling]
      dsimp only
      rw [hdue, add_zero, hinside, owedIn_user hqueue]
      exact (zero_add _).symm
    · rw [PaymentsSystem.tidy_enter hfree]
      exact ⟨fun htidy => ⟨htidy, hcalm⟩, fun htidy => htidy.1⟩
    · simp only [Delivered, hevent, hcalling, hqueue, hnext]
      exact .inr ⟨entered, hasks, rfl, lookup_insert _⟩

theorem ack_kept {ack : Ack} (h : s.Coherent) (hevent : input.event = .execute)
    (hcalling : s.executor.calling = none) (hqueue : s.executor.queue = .ack ack :: queue) :
    Kept crates wc s input := by
  have hmem : ack ∈ acks s.executor.queue := by
    rw [hqueue]
    exact List.mem_cons_self
  obtain ⟨request, hrequest, hbuilder, hreply⟩ := h.acknowledged ack hmem
  have hpending := h.mem_pending hcalling hrequest
  have hcalm : ¬Refuses s input := not_refuses (fun _ _ => .inr hcalling)
  have hdue : due input = 0 := by
    rw [due, hevent]
  obtain ⟨hanswers, hafter⟩ := @executeAck_eq input.wallets { s.executor with queue := queue } ack
    request.entered.callback hpending
  generalize hexecuted : executeAck input.wallets { s.executor with queue := queue } ack = executed
    at hanswers hafter
  have hstep : s.executor.step crates wc input = executed := by
    rw [← hexecuted]
    simp only [PaymentsExecutor.step, hevent, hcalling, hqueue]
  have hnext : (paymentsMachine crates wc).step input s = (executed.1,
      ⟨{ s.executor with
        queue := queue
        pendingCallbacks := s.executor.pendingCallbacks.erase ack.cmdHandle },
        s.requests.erase ack.cmdHandle⟩) := by
    rw [step_eq h.alive, hstep, hafter]
    simp only [requestsAfter, hevent, hcalling, hqueue]
  apply kept_of_eq hnext
  · exact h.acknowledge hcalling hqueue
  · rw [hdue, add_zero, settled, hanswers, owedIn_ack hqueue]
    exact owedIn_erase hpending
  · constructor
    · intro htidy
      refine ⟨?_, hcalm⟩
      intro other hother
      obtain ⟨request', hrequest', hopen⟩ := htidy other hother
      exact ⟨request', (lookup_erase_eq_some.mp hrequest').2, hopen⟩
    · rintro ⟨htidy, _⟩ other hother
      obtain ⟨request', hrequest', hopen⟩ := htidy other hother
      have hne : other ≠ ack.cmdHandle := (h.ack_ne hrequest' hopen hmem).symm
      exact ⟨request', lookup_erase_eq_some.mpr ⟨hne, hrequest'⟩, hopen⟩
  · simp only [Delivered, hevent, hcalling, hqueue, hnext]
    refine ⟨request, hrequest, hreply, ?_⟩
    rw [← hbuilder]
    exact hanswers

theorem reply_kept {cStr : Option Bytes} (h : s.Coherent)
    (hevent : input.event = .reply cmdHandle err cStr) (hcontract : Contract s input)
    (hpermitted : Permitted wc s input) : Kept crates wc s input := by
  simp only [Contract, hevent] at hcontract
  simp only [Permitted, hevent] at hpermitted
  obtain ⟨request, hrequest, hopen⟩ := hcontract
  obtain ⟨metadata, hmetadata⟩ := hpermitted
  have hstored := h.stored cmdHandle request hrequest hopen
  have hcalm : ¬Refuses s input := by
    apply not_refuses
    intro err he
    rw [hevent] at he
    cases he
  have hnext : (paymentsMachine crates wc).step input s = ([],
      ⟨{ s.executor with
        callbacks := s.executor.callbacks.erase cmdHandle
        queue := s.executor.queue ++
          [.ack ⟨request.entered.call.builder, cmdHandle, err.toResult metadata⟩] },
        s.requests.insert cmdHandle ⟨request.entered, some (err.toResult metadata)⟩⟩) := by
    simp only [step_eq h.alive, PaymentsExecutor.step, requestsAfter, hevent, callback, hstored,
      hrequest, hmetadata, PaymentsExecutor.send]
  apply kept_of_eq hnext
  · exact h.reply hrequest hopen
  · rw [due, hevent, add_zero]
    exact ((zero_add _).trans (@owedIn_send_ack { s.executor with
      callbacks := s.executor.callbacks.erase cmdHandle } _)).symm
  · constructor
    · intro htidy
      refine ⟨?_, hcalm⟩
      intro other hother
      by_cases he : other = cmdHandle
      · rw [he]
        exact ⟨request, hrequest, hopen⟩
      · obtain ⟨request', hrequest', hopen'⟩ := htidy other (mem_erase.mpr ⟨he, hother⟩)
        obtain ⟨rfl, _⟩ | ⟨_, hrequest'⟩ := lookup_insert_eq_some.mp hrequest'
        · exact absurd rfl he
        · exact ⟨request', hrequest', hopen'⟩
    · rintro ⟨htidy, _⟩ other hother
      obtain ⟨hne, hother⟩ := mem_erase.mp hother
      obtain ⟨request', hrequest', hopen'⟩ := htidy other hother
      exact ⟨request', lookup_insert_eq_some.mpr (.inr ⟨hne, hrequest'⟩), hopen'⟩
  · simp only [Delivered, hevent, hnext]
    exact ⟨request, metadata, hrequest, hmetadata, rfl⟩

theorem accepted_kept (h : s.Coherent) (hevent : input.event = .returned .success)
    (hcalling : s.executor.calling = some entered) :
    Kept crates wc s input := by
  have hcalm : ¬Refuses s input := by
    apply not_refuses
    intro err he
    rw [hevent] at he
    cases he
    exact .inl rfl
  have hnext : (paymentsMachine crates wc).step input s = ([],
      ⟨{ s.executor with
        calling := none
        pendingCallbacks := s.executor.pendingCallbacks.insert entered.call.cmdHandle
          entered.callback }, s.requests⟩) := by
    simp only [step_eq h.alive, PaymentsExecutor.step, requestsAfter, hevent, hcalling, returned,
      ErrorCode.toResult, if_true]
  apply kept_of_eq hnext
  · exact h.accepted hcalling
  · have hinserted := @owedIn_insert { s.executor with calling := none } entered.call.cmdHandle
      entered.callback (h.inside entered hcalling).1
    rw [due, hevent, add_zero, owedIn_entered hcalling, ← hinserted]
    exact (zero_add _).symm
  · exact ⟨fun htidy => ⟨htidy, hcalm⟩, fun htidy => htidy.1⟩
  · simp only [Delivered, hevent]

theorem refused_kept (h : s.Coherent) (hevent : input.event = .returned err) (herr : err ≠ .success)
    (hcalling : s.executor.calling = some entered) (hcontract : Contract s input) :
    Kept crates wc s input := by
  simp only [Contract, hevent] at hcontract
  obtain ⟨request, hrequest, hopen⟩ := hcontract herr entered hcalling
  have hnext : (paymentsMachine crates wc).step input s =
      ([.callback entered.callback.cb (.error err.toError)],
        ⟨{ s.executor with calling := none }, s.requests.erase entered.call.cmdHandle⟩) := by
    simp only [step_eq h.alive, PaymentsExecutor.step, requestsAfter, hevent, hcalling, returned,
      ErrorCode.toResult, if_neg herr, PaymentsExecutor.call]
  apply kept_of_eq hnext
  · exact h.refused hcalling hrequest hopen
  · rw [due, hevent, add_zero]
    exact owedIn_entered hcalling
  · constructor
    · intro htidy
      have hstored := h.stored _ request hrequest hopen
      obtain ⟨request', hrequest', _⟩ := htidy entered.call.cmdHandle
        (lookup_isSome.mp (by rw [hstored]; rfl))
      exact absurd rfl (lookup_erase_eq_some.mp hrequest').1
    · rintro ⟨_, hcalm⟩
      exact absurd ⟨err, entered, hevent, herr, hcalling⟩ hcalm
  · simp only [Delivered, hevent]

theorem step_kept (h : s.Coherent) (hcontract : Contract s input)
    (hpermitted : Permitted wc s input) : Kept crates wc s input := by
  cases hevent : input.event with
  | submit cmd => exact submit_kept h hevent
  | reply cmdHandle err cStr => exact reply_kept h hevent hcontract hpermitted
  | execute =>
    have hdue : due input = 0 := by
      rw [due, hevent]
    have hcalm : ¬Refuses s input := by
      rintro ⟨err, entered, he, _⟩
      rw [hevent] at he
      cases he
    cases hcalling : s.executor.calling with
    | some entered =>
      apply idle_kept h ?_ hdue hcalm
      · simp only [Delivered, hevent, hcalling]
      · simp only [step_eq h.alive, PaymentsExecutor.step, requestsAfter, hevent, hcalling]
    | none =>
      cases hqueue : s.executor.queue with
      | nil =>
        apply idle_kept h ?_ hdue hcalm
        · simp only [Delivered, hevent, hcalling, hqueue]
        · simp only [step_eq h.alive, PaymentsExecutor.step, requestsAfter, hevent, hcalling,
            hqueue]
      | cons cmd queue =>
        cases cmd with
        | user cmd => exact user_kept h hevent hcalling hqueue hpermitted
        | ack ack => exact ack_kept h hevent hcalling hqueue
  | returned err =>
    cases hcalling : s.executor.calling with
    | none =>
      refine idle_kept h ?_ ?_ (not_refuses (fun _ _ => .inr hcalling)) ?_
      · simp only [step_eq h.alive, PaymentsExecutor.step, requestsAfter, hevent, hcalling]
      · rw [due, hevent]
      · simp only [Delivered, hevent]
    | some entered =>
      by_cases herr : err = .success
      · rw [herr] at hevent
        exact accepted_kept h hevent hcalling
      · exact refused_kept h hevent herr hcalling hcontract

theorem reply_alive_iff {cStr : Option Bytes} (h : s.Coherent)
    (hevent : input.event = .reply cmdHandle err cStr) (hcontract : Contract s input) :
    ((paymentsMachine crates wc).step input s).2.executor.panicked = false ↔
      ∃ metadata, readReply cStr = some metadata := by
  constructor
  · intro halive
    cases hread : readReply cStr with
    | some metadata => exact ⟨metadata, rfl⟩
    | none =>
      simp only [Contract, hevent] at hcontract
      obtain ⟨request, hrequest, hopen⟩ := hcontract
      simp only [step_eq h.alive, PaymentsExecutor.step, hevent, callback, hread,
        h.stored cmdHandle request hrequest hopen] at halive
      cases halive
  · intro hread
    refine (reply_kept h hevent hcontract ?_).resolved.alive
    simpa only [Permitted, hevent] using hread

/-! ### Runs -/

/-- Nothing has been asked yet, whatever methods are registered. -/
structure PaymentsSystem.Idle (s : PaymentsSystem) : Prop where
  alive : s.executor.panicked = false
  queue : s.executor.queue = []
  calling : s.executor.calling = none
  pendingCallbacks : s.executor.pendingCallbacks = ∅
  callbacks : s.executor.callbacks = ∅
  requests : s.requests = ∅

theorem lookup_empty {α : Type} {m : AssocMap ℤ α} {k : ℤ} {a : α} (hm : m = ∅)
    (h : m.lookup k = some a) : False := by
  rw [hm, AList.lookup_empty] at h
  cases h

theorem PaymentsSystem.Idle.coherent (h : s.Idle) : s.Coherent := by
  have hacks : acks s.executor.queue = [] := by
    rw [h.queue]
    rfl
  constructor
  · exact h.alive
  · intro cmdHandle request hrequest
    exact absurd hrequest (fun hrequest => lookup_empty h.requests hrequest)
  · rw [h.pendingCallbacks]
    intro cmdHandle hmem
    exact absurd hmem (notMem_empty cmdHandle)
  · rw [h.calling]
    intro entered hentered
    cases hentered
  · intro cmdHandle request hrequest
    exact absurd hrequest (fun hrequest => lookup_empty h.requests hrequest)
  · rw [hacks]
    exact List.nodup_nil
  · rw [hacks]
    intro ack hack
    cases hack
  · intro cmdHandle request hrequest
    exact absurd hrequest (fun hrequest => lookup_empty h.requests hrequest)

theorem PaymentsSystem.Idle.tidy (h : s.Idle) : s.Tidy := by
  rw [PaymentsSystem.Tidy, h.callbacks]
  intro cmdHandle hmem
  exact absurd hmem (notMem_empty cmdHandle)

theorem PaymentsSystem.Idle.owed_eq_zero (h : s.Idle) : owed s = 0 := by
  rw [owed, owedIn, h.queue, h.calling, h.pendingCallbacks]
  rfl

theorem eq_empty_of_notMem {α : Type} {m : AssocMap ℤ α} (h : ∀ k, k ∉ m) : m = ∅ := by
  rw [← toPairs_isEmpty, List.isEmpty_iff, List.eq_nil_iff_forall_not_mem]
  rintro ⟨k, a⟩ hmem
  have hlookup := mem_toPairs.mp hmem
  exact h k (lookup_isSome.mp (by rw [hlookup]; rfl))

theorem PaymentsSystem.Coherent.settled (h : s.Coherent) (hsettled : s.Settled) :
    owed s = 0 ∧ s.executor.pendingCallbacks = ∅ ∧ (s.executor.callbacks = ∅ ↔ s.Tidy) := by
  have hclosed : ∀ cmdHandle, s.requests.lookup cmdHandle = none := by
    intro cmdHandle
    cases hrequest : s.requests.lookup cmdHandle with
    | none => rfl
    | some request =>
      obtain ⟨ack, hack, _⟩ := h.replied cmdHandle request hrequest
        (hsettled.replied cmdHandle request hrequest)
      rw [hsettled.queue] at hack
      cases hack
  have hpending : s.executor.pendingCallbacks = ∅ := by
    apply eq_empty_of_notMem
    intro cmdHandle hmem
    have hsome := lookup_isSome.mpr (h.waiting cmdHandle hmem)
    rw [hclosed cmdHandle] at hsome
    cases hsome
  refine ⟨?_, hpending, ?_, ?_⟩
  · rw [owed, owedIn, hsettled.queue, hsettled.calling, hpending]
    rfl
  · intro hempty
    rw [PaymentsSystem.Tidy, hempty]
    intro cmdHandle hmem
    exact absurd hmem (notMem_empty cmdHandle)
  · intro htidy
    apply eq_empty_of_notMem
    intro cmdHandle hmem
    obtain ⟨request, hrequest, _⟩ := htidy cmdHandle hmem
    rw [hclosed cmdHandle] at hrequest
    cases hrequest

/-- The plugins keep their contract, and the run stays within what is permitted. -/
def Proper (wc : WalletCrypto) (s : PaymentsSystem) (input : PaymentsInput) : Prop :=
  Contract s input ∧ Permitted wc s input

theorem run_coherent {inputs : List PaymentsInput} (h : s.Coherent)
    (hproper : (paymentsMachine crates wc).Along (Proper wc) s inputs) :
    ((paymentsMachine crates wc).run inputs s).Coherent := by
  induction inputs generalizing s with
  | nil => exact h
  | cons input inputs ih => exact ih (step_kept h hproper.1.1 hproper.1.2).coherent hproper.2

theorem run_tidy_iff {inputs : List PaymentsInput} (h : s.Coherent)
    (hproper : (paymentsMachine crates wc).Along (Proper wc) s inputs) :
    ((paymentsMachine crates wc).run inputs s).Tidy ↔ s.Tidy ∧
      (paymentsMachine crates wc).Along (fun s input => ¬Refuses s input) s inputs := by
  induction inputs generalizing s with
  | nil => exact (and_iff_left trivial).symm
  | cons input inputs ih =>
    have hkept := @step_kept crates wc s input h hproper.1.1 hproper.1.2
    rw [run, ih hkept.coherent hproper.2, hkept.tidy_iff, and_assoc, Machine.Along]

/-- Every command is answered once, with the result of the reply to its own call, and no reply is
lost; when all is settled nobody waits, and no closure is left exactly when no call was refused. -/
theorem callbacks_resolved {inputs : List PaymentsInput} (h : s.Idle)
    (hproper : (paymentsMachine crates wc).Along (Proper wc) s inputs) :
    (paymentsMachine crates wc).Along (Resolved crates wc) s inputs ∧
      dueBy due inputs =
        settledBy settled ((paymentsMachine crates wc).outputs inputs s) +
          owed ((paymentsMachine crates wc).run inputs s) ∧
      (((paymentsMachine crates wc).run inputs s).Settled →
        settledBy settled ((paymentsMachine crates wc).outputs inputs s) =
            dueBy due inputs ∧
          ((paymentsMachine crates wc).run inputs s).executor.pendingCallbacks = ∅ ∧
          (((paymentsMachine crates wc).run inputs s).executor.callbacks = ∅ ↔
            (paymentsMachine crates wc).Along (fun s input => ¬Refuses s input) s inputs)) := by
  have hresolved : (paymentsMachine crates wc).Along (Resolved crates wc) s inputs := by
    have hstart : s.Coherent := h.coherent
    refine along_of_along ?_ hstart hproper
    intro s input hcoherent hproper
    have hkept := @step_kept crates wc s input hcoherent hproper.1 hproper.2
    exact ⟨hkept.resolved, hkept.coherent⟩
  have hbalanced : (paymentsMachine crates wc).Along
      ((paymentsMachine crates wc).Balanced owed due settled) s inputs := by
    apply along_mono ?_ hresolved
    intro s input hstep
    exact hstep.balanced
  refine ⟨hresolved, ?_, ?_⟩
  · have hrun := run_balanced hbalanced
    rw [h.owed_eq_zero, zero_add] at hrun
    exact hrun
  · intro hsettled
    obtain ⟨howed, hpending, hcallbacks⟩ := (run_coherent h.coherent hproper).settled hsettled
    refine ⟨settled_eq_due hbalanced h.owed_eq_zero howed, hpending, ?_⟩
    rw [hcallbacks, run_tidy_iff h.coherent hproper]
    exact and_iff_right h.tidy

/-! ### Two runs -/

def exampleCrates : PaymentsCrates where
  base58 := Crypto.rustBase58
  readInputs := fun _ => none
  readOutputs := fun _ => none
  readFees := fun _ => none

def idleSystem : PaymentsSystem where
  executor :=
    { methods := registerPaymentMethod ∅ "null" ⟨fun _ => 4096⟩
      pendingCallbacks := ∅
      callbacks := ∅
      queue := []
      calling := none
      panicked := false }
  requests := ∅

/-- One wallet is open, with a record that is too short for its name and its value. -/
def exampleWallets : Wallets := fun handle =>
  if handle = 1 then
    some ⟨Wallet.zeroKeys, .ok (), .ok [.ok ⟨[], Wallet.zeroNonce.bytes,
      ⟨Wallet.zeroNonce.bytes, Wallet.zeroNonce.bytes⟩, []⟩]⟩
  else none

def createNullAddress : UserCommand where
  request := .plugin (.createAddress 1 ⟨"null", by decide⟩ ⟨"\x7b\x7d", by decide⟩)
  cb := 5

/-- The plugin replies before its entry point returns, and another command waits. -/
def createdAddress : List PaymentsInput :=
  [⟨.submit createNullAddress, 7, exampleWallets⟩,
    ⟨.execute, 7, exampleWallets⟩,
    ⟨.submit ⟨.listAddresses 1, 6⟩, 8, exampleWallets⟩,
    ⟨.reply 7 .success (some (Bytes.ofText "pay:null:1")), 8, exampleWallets⟩,
    ⟨.returned .success, 8, exampleWallets⟩,
    ⟨.execute, 8, exampleWallets⟩,
    ⟨.execute, 8, exampleWallets⟩]

theorem exampleWallets_listable : Listable Wallet.plainCrypto exampleWallets
    (.listAddresses 1) := by
  intro wallet rows hwallet hsearch
  cases hwallet
  cases hsearch
  exact ⟨retrieve_ne_panic le_rfl le_rfl le_rfl, fun _ _ => trivial⟩

theorem createdAddress_proper :
    (paymentsMachine exampleCrates Wallet.plainCrypto).Along (Proper Wallet.plainCrypto) idleSystem
      createdAddress := by
  have hreply : readReply (some (Bytes.ofText "pay:null:1")) = some "pay:null:1" :=
    Bytes.toText_ofText "pay:null:1"
  refine ⟨⟨trivial, trivial⟩, ⟨trivial, ?_⟩, ⟨trivial, trivial⟩,
    ⟨⟨_, rfl, rfl⟩, ⟨_, hreply⟩⟩, ⟨fun herr => absurd rfl herr, trivial⟩, ⟨trivial, ?_⟩,
    ⟨trivial, ?_⟩, trivial⟩
  · intro _ cmd queue hqueue
    cases hqueue
    exact ⟨notMem_empty 7, notMem_empty 7, trivial⟩
  · intro _ cmd queue hqueue
    cases hqueue
    exact ⟨by decide +kernel, by decide +kernel, exampleWallets_listable⟩
  · intro _ cmd queue hqueue
    cases hqueue

theorem createdAddress_resolved :
    (paymentsMachine exampleCrates Wallet.plainCrypto).Along
        (Resolved exampleCrates Wallet.plainCrypto) idleSystem createdAddress ∧
      settledBy settled ((paymentsMachine exampleCrates Wallet.plainCrypto).outputs
        createdAddress idleSystem) = {5, 6} := by
  have hrun := callbacks_resolved ⟨rfl, rfl, rfl, rfl, rfl, rfl⟩ createdAddress_proper
  have hclosed : ((paymentsMachine exampleCrates Wallet.plainCrypto).run createdAddress
      idleSystem).requests = ∅ := rfl
  have hsettled : ((paymentsMachine exampleCrates Wallet.plainCrypto).run createdAddress
      idleSystem).Settled := by
    refine ⟨rfl, rfl, ?_⟩
    intro cmdHandle request hrequest
    exact absurd hrequest (fun hrequest => lookup_empty hclosed hrequest)
  exact ⟨hrun.1, (hrun.2.2 hsettled).1⟩

/-- The plugin refuses the call. -/
def refusedAddress : List PaymentsInput :=
  [⟨.submit createNullAddress, 7, exampleWallets⟩, ⟨.execute, 7, exampleWallets⟩,
    ⟨.returned 112, 8, exampleWallets⟩]

/-- After a refusal nothing is outstanding, but the closure for the reply is still kept. -/
theorem refusedAddress_leaks :
    idleSystem.Idle ∧
      (paymentsMachine exampleCrates Wallet.plainCrypto).Along Contract idleSystem
        refusedAddress ∧
      ((paymentsMachine exampleCrates Wallet.plainCrypto).run refusedAddress
        idleSystem).Settled ∧
      ((paymentsMachine exampleCrates Wallet.plainCrypto).run refusedAddress
        idleSystem).executor.callbacks ≠ ∅ := by
  have hclosed : ((paymentsMachine exampleCrates Wallet.plainCrypto).run refusedAddress
      idleSystem).requests = ∅ := rfl
  refine ⟨⟨rfl, rfl, rfl, rfl, rfl, rfl⟩, ⟨trivial, trivial, ?_, trivial⟩, ⟨rfl, rfl, ?_⟩, ?_⟩
  · intro _ entered hentered
    cases hentered
    exact ⟨_, rfl, rfl⟩
  · intro cmdHandle request hrequest
    exact absurd hrequest (fun hrequest => lookup_empty hclosed hrequest)
  · intro hempty
    have hkept : ((paymentsMachine exampleCrates Wallet.plainCrypto).run refusedAddress
        idleSystem).executor.callbacks.lookup 7 = some (.createAddressAck 1) := rfl
    exact lookup_empty hempty hkept

end IndySdk.Payments
