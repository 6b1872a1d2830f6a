import IndySdk.CredentialExchange

/-!
# Calls that are repeated until they succeed

Beside the object a run counts what has happened outside it. A call that fails after its payment,
or after it has issued a credential, cannot be repeated without paying or issuing again, and it
leaves the payment or the counted message behind.
-/

namespace IndySdk.Vcx

open Outcome

theorem Sending.result_cases (sending : Sending) :
    (∃ uid, sending.result = .ok uid) ∨ ∃ e, sending.result = .err e := by
  cases sending with
  | lost e => exact .inr ⟨e, rfl⟩
  | unacknowledged e => exact .inr ⟨e, rfl⟩
  | acknowledged uid => exact .inl ⟨uid, rfl⟩

theorem Payment.result_cases (payment : Payment) :
    (∃ txn, payment.result = .ok txn) ∨ ∃ e, payment.result = .err e := by
  cases payment with
  | refused e => exact .inr ⟨e, rfl⟩
  | unacknowledged e => exact .inr ⟨e, rfl⟩
  | confirmed txn => exact .inl ⟨txn, rfl⟩
  | rejected txn => exact .inl ⟨txn, rfl⟩

/-! ### The holder -/

structure HolderRun where
  credential : Credential
  paid : ℕ := 0
  delivered : ℕ := 0

def holderMachine : Machine HolderRun HolderWorld (VcxResult Unit) where
  step world s :=
    let (result, credential, effects) := s.credential.sendRequest world
    (result, ⟨credential, s.paid + effects.paid.toNat, s.delivered + effects.delivered.toNat⟩)

namespace Credential

/-- What a failed call should leave alone. -/
structure Same (c c' : Credential) : Prop where
  state : c'.state = c.state
  thread : c'.thread = c.thread
  paymentTxn : c'.paymentTxn = c.paymentTxn

theorem takeConnection_same (world : HolderWorld) (fields : List ConnectionField)
    (c : Credential) : c.Same (takeConnection world fields c).2 := by
  induction fields generalizing c with
  | nil => exact ⟨rfl, rfl, rfl⟩
  | cons field fields ih =>
    rw [takeConnection]
    cases world.connection field with
    | ok value =>
      have hrest := ih { c with connection := Function.update c.connection field (some value) }
      exact ⟨hrest.state, hrest.thread, hrest.paymentTxn⟩
    | err e => exact ⟨rfl, rfl, rfl⟩
    | panic => exact ⟨rfl, rfl, rfl⟩

theorem prepare_same (world : HolderWorld) (c : Credential) : c.Same (c.prepare world).2 := by
  have htaken := takeConnection_same world
    [.pwDid, .pwVerkey, .agentDid, .agentVerkey, .theirPwDid, .theirPwVerkey] c
  unfold prepare
  generalize takeConnection world _ c = taken at htaken
  obtain ⟨result, taken⟩ := taken
  cases result with
  | err e => exact htaken
  | panic => exact htaken
  | ok u =>
    dsimp only
    cases taken.buildJson world with
    | err e => exact htaken
    | panic => exact htaken
    | ok built =>
      obtain ⟨credReq, credReqJson, myVk, theirVk⟩ := built
      dsimp only
      split
      · exact ⟨htaken.state, htaken.thread, htaken.paymentTxn⟩
      · exact ⟨htaken.state, htaken.thread, htaken.paymentTxn⟩

end Credential

namespace HolderRun

variable (s : HolderRun) (world : HolderWorld)

structure RetrySafe : Prop where
  paidOnce : (holderMachine.step world s).2.paid ≤ 1
  unchanged : ∀ e, (holderMachine.step world s).1 = .err e →
    s.credential.Same (holderMachine.step world s).2.credential

/-- The order of the sender goes up by one with each message that is delivered. -/
def Counted : Prop :=
  (holderMachine.step world s).2.credential.thread.map Thread.senderOrder =
    s.credential.thread.map (fun thread => thread.senderOrder +
      ((holderMachine.step world s).2.delivered - s.delivered))

/-- A call that gets as far as paying pays for the first time, and what it pays for is sent. -/
def PaysFirst : Prop :=
  ∀ prepared c, s.credential.prepare world = (.ok prepared, c) → c.paymentInfo.isSome →
    ((c.submitPayment world).paid → s.paid = 0) ∧
      ∀ txn, (c.submitPayment world).result = .ok txn →
        (∃ uid, (c.send world prepared).result = .ok uid) ∨ s.credential.paymentTxn = some txn

/-- A call that gets as far as sending has no thread, or its message is lost. -/
def Undelivered : Prop :=
  ∀ prepared c, s.credential.prepare world = (.ok prepared, c) →
    (c.paymentInfo.isSome → ∃ txn, (c.submitPayment world).result = .ok txn) →
    s.credential.thread = none ∨ (c.send world prepared).delivered = false

end HolderRun

namespace Credential

variable {world : HolderWorld} {c c' : Credential} {prepared : Prepared}

theorem sendRequest_unprepared {r : VcxResult Prepared} (h : c.prepare world = (r, c'))
    (hr : ∀ prepared, r ≠ .ok prepared) :
    ∃ result, (∀ u, result ≠ .ok u) ∧ c.sendRequest world = (result, c', {}) := by
  rw [sendRequest, h]
  cases r with
  | ok prepared => exact absurd rfl (hr prepared)
  | err e => exact ⟨.err e, fun u => err_ne_ok e u, rfl⟩
  | panic => exact ⟨.panic, fun u => panic_ne_ok u, rfl⟩

theorem sendRequest_free (h : c.prepare world = (.ok prepared, c'))
    (hfree : c'.paymentInfo.isSome = false) :
    c.sendRequest world = c'.finishRequest world prepared false := by
  rw [sendRequest, h]
  dsimp only
  rw [if_neg (by rw [hfree]; exact Bool.false_ne_true)]

theorem sendRequest_unpaid (h : c.prepare world = (.ok prepared, c'))
    (hprice : c'.paymentInfo.isSome = true) {e : VcxError}
    (hpay : (c'.submitPayment world).result = .err e) :
    c.sendRequest world = (.err e, c', ⟨(c'.submitPayment world).paid, false⟩) := by
  rw [sendRequest, h]
  dsimp only
  rw [if_pos hprice, hpay]

theorem sendRequest_paid (h : c.prepare world = (.ok prepared, c'))
    (hprice : c'.paymentInfo.isSome = true) {txn : PaymentTxn}
    (hpay : (c'.submitPayment world).result = .ok txn) :
    c.sendRequest world = finishRequest world { c' with paymentTxn := some txn } prepared
      (c'.submitPayment world).paid := by
  rw [sendRequest, h]
  dsimp only
  rw [if_pos hprice, hpay]

theorem finishRequest_effects (paid : Bool) :
    (c.finishRequest world prepared paid).2.2 = ⟨paid, (c.send world prepared).delivered⟩ := by
  unfold finishRequest
  dsimp only
  rcases (c.send world prepared).result_cases with ⟨uid, h⟩ | ⟨e, h⟩
  · rw [h]
  · rw [h]

theorem finishRequest_thread (paid : Bool) :
    (c.finishRequest world prepared paid).2.1.thread = c.thread := by
  unfold finishRequest
  dsimp only
  rcases (c.send world prepared).result_cases with ⟨uid, h⟩ | ⟨e, h⟩
  · rw [h]
  · rw [h]

theorem finishRequest_sent (paid : Bool) {uid : String}
    (h : (c.send world prepared).result = .ok uid) :
    (c.finishRequest world prepared paid).1 = .ok () := by
  unfold finishRequest
  dsimp only
  rw [h]

theorem finishRequest_failed (paid : Bool) {e : VcxError}
    (h : (c.send world prepared).result = .err e) :
    c.finishRequest world prepared paid =
      (.err e, c, ⟨paid, (c.send world prepared).delivered⟩) := by
  unfold finishRequest
  dsimp only
  rw [h]

theorem sendRequest_thread (world : HolderWorld) (c : Credential) :
    (c.sendRequest world).2.1.thread = c.thread := by
  have hthread := (prepare_same world c).thread
  obtain ⟨r, c', hprepare⟩ : ∃ r c', c.prepare world = (r, c') := ⟨_, _, rfl⟩
  rw [hprepare] at hthread
  cases r with
  | err e =>
    obtain ⟨_, _, hsend⟩ := sendRequest_unprepared hprepare (fun _ => err_ne_ok e _)
    rw [hsend]
    exact hthread
  | panic =>
    obtain ⟨_, _, hsend⟩ := sendRequest_unprepared hprepare (fun _ => panic_ne_ok _)
    rw [hsend]
    exact hthread
  | ok prepared =>
    cases hprice : c'.paymentInfo.isSome with
    | false => rw [sendRequest_free hprepare hprice, finishRequest_thread, hthread]
    | true =>
      rcases (c'.submitPayment world).result_cases with ⟨txn, hpay⟩ | ⟨e, hpay⟩
      · rw [sendRequest_paid hprepare hprice hpay, finishRequest_thread]
        exact hthread
      · rw [sendRequest_unpaid hprepare hprice hpay]
        exact hthread

theorem sendRequest_delivered (h : c.prepare world = (.ok prepared, c')) :
    (c.sendRequest world).2.2.delivered = true ↔
      (c'.paymentInfo.isSome → ∃ txn, (c'.submitPayment world).result = .ok txn) ∧
        (c'.send world prepared).delivered = true := by
  cases hprice : c'.paymentInfo.isSome with
  | false =>
    rw [sendRequest_free h hprice, finishRequest_effects]
    exact ⟨fun hd => ⟨fun hsome => absurd hsome Bool.false_ne_true, hd⟩, fun hd => hd.2⟩
  | true =>
    rcases (c'.submitPayment world).result_cases with ⟨txn, hpay⟩ | ⟨e, hpay⟩
    · rw [sendRequest_paid h hprice hpay, finishRequest_effects]
      exact ⟨fun hd => ⟨fun _ => ⟨txn, hpay⟩, hd⟩, fun hd => hd.2⟩
    · rw [sendRequest_unpaid h hprice hpay]
      constructor
      · exact fun hd => absurd hd Bool.false_ne_true
      · rintro ⟨hok, -⟩
        obtain ⟨txn, hok⟩ := hok rfl
        rw [hpay] at hok
        cases hok

end Credential

theorem add_toNat_le_one_iff {n : ℕ} (hn : n ≤ 1) (b : Bool) :
    n + b.toNat ≤ 1 ↔ (b → n = 0) := by
  cases b with
  | true => exact ⟨fun h _ => by simpa using h, fun h => by rw [h rfl]; decide⟩
  | false => exact ⟨fun _ h => absurd h Bool.false_ne_true, fun _ => hn⟩

namespace HolderRun

variable {s : HolderRun} {world : HolderWorld}

theorem paysFirst_iff {prepared : Credential.Prepared} {c : Credential}
    (hprepare : s.credential.prepare world = (.ok prepared, c))
    (hprice : c.paymentInfo.isSome = true) :
    s.PaysFirst world ↔
      ((c.submitPayment world).paid → s.paid = 0) ∧
        ∀ txn, (c.submitPayment world).result = .ok txn →
          (∃ uid, (c.send world prepared).result = .ok uid) ∨
            s.credential.paymentTxn = some txn := by
  constructor
  · exact fun h => h prepared c hprepare hprice
  · rintro h prepared' c' hprepared -
    rw [hprepare] at hprepared
    cases hprepared
    exact h

theorem paysFirst_of_free {r : VcxResult Credential.Prepared} {c : Credential}
    (hprepare : s.credential.prepare world = (r, c))
    (h : ∀ prepared, r = .ok prepared → c.paymentInfo.isSome = false) : s.PaysFirst world := by
  intro prepared c' hprepared hsome
  rw [hprepare] at hprepared
  cases hprepared
  rw [h prepared rfl] at hsome
  cases hsome

theorem retrySafe_iff (hpaid : s.paid ≤ 1) : s.RetrySafe world ↔ s.PaysFirst world := by
  have hsame := Credential.prepare_same world s.credential
  obtain ⟨r, c, hprepare⟩ : ∃ r c, s.credential.prepare world = (r, c) := ⟨_, _, rfl⟩
  rw [hprepare] at hsame
  have hsafe : s.RetrySafe world ↔
      s.paid + (s.credential.sendRequest world).2.2.paid.toNat ≤ 1 ∧
        ∀ e, (s.credential.sendRequest world).1 = .err e →
          s.credential.Same (s.credential.sendRequest world).2.1 :=
    ⟨fun h => ⟨h.paidOnce, h.unchanged⟩, fun h => ⟨h.1, h.2⟩⟩
  rw [hsafe]
  cases r with
  | err e =>
    obtain ⟨result, _, hsend⟩ :=
      Credential.sendRequest_unprepared hprepare (fun _ => err_ne_ok e _)
    rw [hsend]
    exact iff_of_true ⟨hpaid, fun _ _ => hsame⟩
      (paysFirst_of_free hprepare (fun _ h => absurd h (err_ne_ok e _)))
  | panic =>
    obtain ⟨result, _, hsend⟩ :=
      Credential.sendRequest_unprepared hprepare (fun _ => panic_ne_ok _)
    rw [hsend]
    exact iff_of_true ⟨hpaid, fun _ _ => hsame⟩
      (paysFirst_of_free hprepare (fun _ h => absurd h (panic_ne_ok _)))
  | ok prepared =>
    cases hprice : c.paymentInfo.isSome with
    | false =>
      rw [Credential.sendRequest_free hprepare hprice, Credential.finishRequest_effects]
      refine iff_of_true ⟨hpaid, ?_⟩ (paysFirst_of_free hprepare (fun _ _ => hprice))
      intro e he
      rcases (c.send world prepared).result_cases with ⟨uid, h⟩ | ⟨e', h⟩
      · rw [Credential.finishRequest_sent false h] at he
        cases he
      · rw [Credential.finishRequest_failed false h]
        exact hsame
    | true =>
      rw [paysFirst_iff hprepare hprice]
      rcases (c.submitPayment world).result_cases with ⟨txn, hpay⟩ | ⟨e, hpay⟩
      · rw [Credential.sendRequest_paid hprepare hprice hpay, Credential.finishRequest_effects,
          add_toNat_le_one_iff hpaid]
        refine and_congr_right (fun _ => ?_)
        have hsends : Credential.send world { c with paymentTxn := some txn } prepared =
            c.send world prepared := rfl
        rcases (c.send world prepared).result_cases with ⟨uid, h⟩ | ⟨e, h⟩
        · refine iff_of_true ?_ (fun _ _ => .inl ⟨uid, h⟩)
          intro e he
          rw [Credential.finishRequest_sent _ (hsends ▸ h)] at he
          cases he
        · rw [Credential.finishRequest_failed _ (hsends ▸ h)]
          constructor
          · intro hun txn' htxn
            rw [hpay] at htxn
            cases htxn
            exact .inr (hun e rfl).paymentTxn.symm
          · intro hpaidFor e' _
            rcases hpaidFor txn hpay with ⟨uid, hsent⟩ | htxn
            · rw [h] at hsent
              cases hsent
            · exact ⟨hsame.state, hsame.thread, htxn.symm⟩
      · rw [Credential.sendRequest_unpaid hprepare hprice hpay, add_toNat_le_one_iff hpaid]
        refine and_congr_right (fun _ => iff_of_true (fun _ _ => hsame) ?_)
        intro txn htxn
        rw [hpay] at htxn
        cases htxn

/-- The holder never counts a message of its own. -/
theorem counted_iff : s.Counted world ↔ s.Undelivered world := by
  have hcounted : s.Counted world ↔
      s.credential.thread = none ∨ (s.credential.sendRequest world).2.2.delivered = false := by
    unfold Counted holderMachine
    dsimp only
    rw [Credential.sendRequest_thread, Nat.add_sub_cancel_left]
    cases s.credential.thread with
    | none => exact iff_of_true rfl (.inl rfl)
    | some thread => cases (s.credential.sendRequest world).2.2.delivered <;> simp
  rw [hcounted]
  obtain ⟨r, c, hprepare⟩ : ∃ r c, s.credential.prepare world = (r, c) := ⟨_, _, rfl⟩
  cases r with
  | err e =>
    obtain ⟨result, _, hsend⟩ :=
      Credential.sendRequest_unprepared hprepare (fun _ => err_ne_ok e _)
    rw [hsend]
    refine iff_of_true (.inr rfl) (fun prepared c' hprepared => ?_)
    rw [hprepare] at hprepared
    cases hprepared
  | panic =>
    obtain ⟨result, _, hsend⟩ :=
      Credential.sendRequest_unprepared hprepare (fun _ => panic_ne_ok _)
    rw [hsend]
    refine iff_of_true (.inr rfl) (fun prepared c' hprepared => ?_)
    rw [hprepare] at hprepared
    cases hprepared
  | ok prepared =>
    have hdelivered := Credential.sendRequest_delivered hprepare
    constructor
    · rintro h prepared' c' hprepared hpay
      rw [hprepare] at hprepared
      cases hprepared
      refine h.imp_right (fun hnot => Bool.eq_false_iff.mpr (fun hsent => ?_))
      rw [hdelivered.mpr ⟨hpay, hsent⟩] at hnot
      cases hnot
    · intro h
      by_cases hpay : c.paymentInfo.isSome → ∃ txn, (c.submitPayment world).result = .ok txn
      · refine (h prepared c hprepare hpay).imp_right (fun hnot => Bool.eq_false_iff.mpr ?_)
        intro hsent
        rw [(hdelivered.mp hsent).2] at hnot
        cases hnot
      · exact .inr (Bool.eq_false_iff.mpr (fun hsent => hpay (hdelivered.mp hsent).1))

end HolderRun

/-! ### The issuer -/

structure IssuerRun where
  credential : IssuerCredential
  issued : ℕ := 0
  delivered : List CredentialMessage := []

def issuerMachine : Machine IssuerRun IssuerWorld (VcxResult Unit) where
  step world s :=
    let (result, credential, effects) := s.credential.sendCredential world
    (result, ⟨credential, s.issued + effects.issued.isSome.toNat,
      s.delivered ++ effects.delivered.toList⟩)

namespace IssuerRun

variable (s : IssuerRun) (world : IssuerWorld)

/-- What one call should keep, of the object and of what has happened outside it. -/
structure Sound : Prop where
  issuedOnce : (issuerMachine.step world s).2.issued ≤ 1
  recorded : (issuerMachine.step world s).2.credential.state = .accepted →
    ∀ message ∈ (issuerMachine.step world s).2.delivered,
      message.credRevocId = (issuerMachine.step world s).2.credential.credRevId
  counted : (issuerMachine.step world s).2.credential.thread.map Thread.senderOrder =
    s.credential.thread.map (fun thread => thread.senderOrder +
      ((issuerMachine.step world s).2.delivered.length - s.delivered.length))
  unchanged : ∀ e, (issuerMachine.step world s).1 = .err e →
    (issuerMachine.step world s).2.credential.state = s.credential.state ∧
      (issuerMachine.step world s).2.credential.thread = s.credential.thread

/-- A call that gets as far as issuing issues for the first time, and if there is a thread it sends
what it has prepared. -/
def IssuesFirst : Prop :=
  ∀ did attrs issued, s.credential.checkSend world = .ok (did, attrs) →
    s.credential.issue world attrs = .ok issued →
      s.issued = 0 ∧ ∀ message data credReqMsgId,
        s.credential.prepareMessage world did issued = .ok (message, data, credReqMsgId) →
          s.credential.thread = none ∨
            ∃ uid, (s.credential.countMessage.send world data credReqMsgId).result = .ok uid

/-- What the run has issued and sent agrees with what the object records. -/
structure Recorded : Prop where
  issuedOnce : s.issued ≤ 1
  unissued : s.issued = 0 → s.delivered = []
  recorded : ∀ message ∈ s.delivered, message.credRevocId = s.credential.credRevId

end IssuerRun

namespace IssuerCredential

variable {world : IssuerWorld} {c : IssuerCredential} {did data credReqMsgId : String}
  {issued : Issued} {message : CredentialMessage}

theorem prepareMessage_credRevocId
    (h : c.prepareMessage world did issued = .ok (message, data, credReqMsgId)) :
    message.credRevocId = issued.2.1 := by
  unfold prepareMessage at h
  obtain ⟨_, -, h⟩ := bind_eq_ok_iff.mp h
  obtain ⟨_, -, h⟩ := bind_eq_ok_iff.mp h
  cases h
  rfl

theorem state_of_checkSend {p : String × String} (h : c.checkSend world = .ok p) :
    c.state = .requestReceived := by
  unfold checkSend at h
  by_contra hstate
  rw [if_pos hstate] at h
  cases h

theorem finishSend_sent {uid : String}
    (h : (c.countMessage.send world data credReqMsgId).result = .ok uid) :
    c.finishSend world issued message data credReqMsgId =
      (.ok (), { c.countMessage with msgUid := uid, state := .accepted },
        ⟨some issued, some message⟩) := by
  unfold finishSend
  dsimp only
  generalize c.countMessage.send world data credReqMsgId = sending at h
  cases sending with
  | lost e => cases h
  | unacknowledged e => cases h
  | acknowledged u =>
    cases h
    rfl

theorem finishSend_failed {e : VcxError}
    (h : (c.countMessage.send world data credReqMsgId).result = .err e) :
    ∃ delivered, c.finishSend world issued message data credReqMsgId =
      (.err e, c.countMessage, ⟨some issued, delivered⟩) ∧
      ∀ m ∈ delivered, m = message := by
  refine ⟨if (c.countMessage.send world data credReqMsgId).delivered then some message else none,
    ?_, ?_⟩
  · unfold finishSend
    dsimp only
    rw [h]
  · intro m hm
    split at hm
    · exact (Option.some.inj hm).symm
    · cases hm

/-- What a call does: nothing, or it issues a credential and ends there, or it goes on to send. -/
theorem sendCredential_cases (world : IssuerWorld) (c : IssuerCredential) :
    (∃ r, c.sendCredential world = (r, c, {}) ∧
      ∀ did attrs issued, c.checkSend world = .ok (did, attrs) →
        c.issue world attrs ≠ .ok issued) ∨
    ∃ did attrs issued, c.checkSend world = .ok (did, attrs) ∧
      c.issue world attrs = .ok issued ∧
      ((∃ r, c.sendCredential world =
          (r, { c with credRevId := issued.2.1 }, ⟨some issued, none⟩) ∧
          ∀ p, c.prepareMessage world did issued ≠ .ok p) ∨
        ∃ message data credReqMsgId,
          c.prepareMessage world did issued = .ok (message, data, credReqMsgId) ∧
          c.sendCredential world = finishSend world { c with credRevId := issued.2.1 } issued
            message data credReqMsgId) := by
  unfold sendCredential
  cases hcheck : c.checkSend world with
  | err e =>
    exact .inl ⟨.err e, rfl, fun _ _ _ h => absurd h (err_ne_ok e _)⟩
  | panic =>
    exact .inl ⟨.panic, rfl, fun _ _ _ h => absurd h (panic_ne_ok _)⟩
  | ok checked =>
    obtain ⟨did, attrs⟩ := checked
    dsimp only
    cases hissue : c.issue world attrs with
    | err e =>
      refine .inl ⟨.err e, rfl, ?_⟩
      rintro did' attrs' issued ⟨⟩ h
      rw [hissue] at h
      cases h
    | panic =>
      refine .inl ⟨.panic, rfl, ?_⟩
      rintro did' attrs' issued ⟨⟩ h
      rw [hissue] at h
      cases h
    | ok issued =>
      refine .inr ⟨did, attrs, issued, rfl, hissue, ?_⟩
      have hsame : prepareMessage world { c with credRevId := issued.2.1 } did issued =
          c.prepareMessage world did issued := rfl
      dsimp only
      rw [hsame]
      cases hprepare : c.prepareMessage world did issued with
      | err e => exact .inl ⟨.err e, rfl, err_ne_ok e⟩
      | panic => exact .inl ⟨.panic, rfl, panic_ne_ok⟩
      | ok p =>
        obtain ⟨message, data, credReqMsgId⟩ := p
        exact .inr ⟨message, data, credReqMsgId, rfl, rfl⟩

end IssuerCredential

namespace IssuerRun

variable {s : IssuerRun} {world : IssuerWorld} {r : VcxResult Unit} {c : IssuerCredential}
  {issued : Issued}

theorem step_eq {effects : IssuerEffects}
    (h : s.credential.sendCredential world = (r, c, effects)) :
    issuerMachine.step world s = (r, ⟨c, s.issued + effects.issued.isSome.toNat,
      s.delivered ++ effects.delivered.toList⟩) := by
  unfold issuerMachine
  dsimp only
  rw [h]

theorem sound_iff {effects : IssuerEffects}
    (h : s.credential.sendCredential world = (r, c, effects)) :
    s.Sound world ↔ s.issued + effects.issued.isSome.toNat ≤ 1 ∧
      (c.state = .accepted → ∀ message ∈ s.delivered ++ effects.delivered.toList,
        message.credRevocId = c.credRevId) ∧
      c.thread.map Thread.senderOrder = s.credential.thread.map (fun thread =>
        thread.senderOrder + effects.delivered.toList.length) ∧
      ∀ e, r = .err e → c.state = s.credential.state ∧ c.thread = s.credential.thread := by
  have hstep := step_eq h
  have hlength : (s.delivered ++ effects.delivered.toList).length - s.delivered.length =
      effects.delivered.toList.length := by
    rw [List.length_append, Nat.add_sub_cancel_left]
  constructor
  · rintro ⟨h1, h2, h3, h4⟩
    rw [hstep] at h1 h2 h3 h4
    rw [hlength] at h3
    exact ⟨h1, h2, h3, h4⟩
  · rintro ⟨h1, h2, h3, h4⟩
    rw [← hlength] at h3
    constructor <;> rw [hstep] <;> assumption

theorem sound_of_idle (hs : s.Recorded)
    (h : s.credential.sendCredential world = (r, s.credential, {})) : s.Sound world := by
  rw [sound_iff h]
  refine ⟨hs.issuedOnce, ?_, ?_, fun _ _ => ⟨rfl, rfl⟩⟩
  · intro _ message hmessage
    exact hs.recorded message (by simpa using hmessage)
  · simp

theorem issuesFirst_iff {did attrs : String}
    (hcheck : s.credential.checkSend world = .ok (did, attrs))
    (hissue : s.credential.issue world attrs = .ok issued) :
    s.IssuesFirst world ↔ s.issued = 0 ∧ ∀ message data credReqMsgId,
      s.credential.prepareMessage world did issued = .ok (message, data, credReqMsgId) →
        s.credential.thread = none ∨
          ∃ uid, (s.credential.countMessage.send world data credReqMsgId).result = .ok uid := by
  constructor
  · exact fun h => h did attrs issued hcheck hissue
  · intro h did' attrs' issued' hcheck' hissue'
    rw [hcheck] at hcheck'
    cases hcheck'
    rw [hissue] at hissue'
    cases hissue'
    exact h

theorem sound_iff_of_unprepared (hstate : s.credential.state = .requestReceived)
    (hsend : s.credential.sendCredential world =
      (r, { s.credential with credRevId := issued.2.1 }, ⟨some issued, none⟩)) :
    s.Sound world ↔ s.issued + true.toNat ≤ 1 := by
  rw [sound_iff hsend]
  refine and_iff_left ⟨?_, ?_, fun _ _ => ⟨rfl, rfl⟩⟩
  · intro haccepted
    rw [hstate] at haccepted
    cases haccepted
  · simp

/-- A message that is sent counts even when it is lost, which an object without a thread does not
show. -/
theorem sound_iff_of_failed {e : VcxError} {message : Option CredentialMessage}
    (hsend : s.credential.sendCredential world = (.err e, c, ⟨some issued, message⟩))
    (hc : c.state = s.credential.state) (hthread : c.thread = s.credential.thread.map
      (fun thread => { thread with senderOrder := thread.senderOrder + 1 }))
    (hstate : s.credential.state = .requestReceived) :
    s.Sound world ↔ s.issued + true.toNat ≤ 1 ∧ s.credential.thread = none := by
  rw [sound_iff hsend]
  refine and_congr_right (fun _ => ?_)
  constructor
  · rintro ⟨-, -, hunchanged⟩
    have hsame := (hunchanged e rfl).2
    rw [hthread] at hsame
    cases h : s.credential.thread with
    | none => rfl
    | some thread =>
      rw [h] at hsame
      have horder := congrArg Thread.senderOrder (Option.some.inj hsame)
      exact absurd horder (Nat.succ_ne_self _)
  · intro hnone
    rw [hnone] at hthread ⊢
    rw [hthread]
    refine ⟨?_, rfl, fun _ _ => ⟨hc, rfl⟩⟩
    intro haccepted
    rw [hc, hstate] at haccepted
    cases haccepted

theorem sound_iff_of_sent (hs : s.Recorded) {message : CredentialMessage}
    (hmessage : message.credRevocId = c.credRevId) (hthread : c.thread = s.credential.thread.map
      (fun thread => { thread with senderOrder := thread.senderOrder + 1 }))
    (hsend : s.credential.sendCredential world = (.ok (), c, ⟨some issued, some message⟩)) :
    s.Sound world ↔ s.issued + true.toNat ≤ 1 := by
  rw [sound_iff hsend]
  constructor
  · exact fun h => h.1
  · intro hissued
    have hunsent : s.delivered = [] :=
      hs.unissued ((add_toNat_le_one_iff hs.issuedOnce true).mp hissued rfl)
    refine ⟨hissued, ?_, ?_, fun e he => absurd he.symm (err_ne_ok e ())⟩
    · intro _ m hm
      rw [hunsent] at hm
      rw [List.mem_singleton.mp hm, hmessage]
    · rw [hthread, Option.map_map]
      rfl

theorem sound_iff_issuesFirst (hs : s.Recorded) : s.Sound world ↔ s.IssuesFirst world := by
  rcases s.credential.sendCredential_cases world with ⟨r, hsend, hidle⟩ |
    ⟨did, attrs, issued, hcheck, hissue, hrest⟩
  · exact iff_of_true (sound_of_idle hs hsend)
      (fun did attrs issued hcheck hissue => absurd hissue (hidle did attrs issued hcheck))
  have hstate := IssuerCredential.state_of_checkSend hcheck
  have hfirst : s.issued + true.toNat ≤ 1 ↔ s.issued = 0 := by
    rw [add_toNat_le_one_iff hs.issuedOnce]
    exact ⟨fun h => h rfl, fun h _ => h⟩
  rw [issuesFirst_iff hcheck hissue]
  rcases hrest with ⟨r, hsend, hunprepared⟩ | ⟨message, data, credReqMsgId, hprepare, hsend⟩
  · rw [sound_iff_of_unprepared hstate hsend, hfirst]
    exact (and_iff_left (fun _ _ _ h => absurd h (hunprepared _))).symm
  have hsends : s.credential.countMessage.send world data credReqMsgId =
      IssuerCredential.send world
        (IssuerCredential.countMessage { s.credential with credRevId := issued.2.1 }) data
        credReqMsgId := rfl
  rcases (s.credential.countMessage.send world data credReqMsgId).result_cases with
    ⟨uid, h⟩ | ⟨e, h⟩
  · rw [IssuerCredential.finishSend_sent (hsends ▸ h)] at hsend
    rw [sound_iff_of_sent hs (IssuerCredential.prepareMessage_credRevocId hprepare) rfl hsend,
      hfirst]
    refine (and_iff_left (fun message' data' credReqMsgId' hprepare' => ?_)).symm
    rw [hprepare] at hprepare'
    cases hprepare'
    exact .inr ⟨uid, h⟩
  · obtain ⟨delivered, hfinish, -⟩ := IssuerCredential.finishSend_failed
      (hsends ▸ h)
    rw [hfinish] at hsend
    rw [sound_iff_of_failed hsend rfl rfl hstate, hfirst]
    refine and_congr_right (fun _ => ?_)
    constructor
    · exact fun hnone _ _ _ _ => .inl hnone
    · intro hsent
      rcases hsent message data credReqMsgId hprepare with hnone | ⟨uid, huid⟩
      · exact hnone
      · rw [h] at huid
        cases huid

theorem recorded_of_first {delivered : Option CredentialMessage} (hs : s.Recorded)
    (hfirst : s.issued = 0)
    (hsend : s.credential.sendCredential world = (r, c, ⟨some issued, delivered⟩))
    (hdelivered : ∀ message ∈ delivered, message.credRevocId = c.credRevId) :
    (issuerMachine.step world s).2.Recorded := by
  rw [step_eq hsend, hfirst, hs.unissued hfirst]
  refine ⟨le_refl 1, fun h => absurd h Nat.one_ne_zero, fun message hmessage => ?_⟩
  exact hdelivered message (Option.mem_toList.mp hmessage)

theorem recorded_step (hs : s.Recorded) (h : s.IssuesFirst world) :
    (issuerMachine.step world s).2.Recorded := by
  rcases s.credential.sendCredential_cases world with ⟨r, hsend, -⟩ |
    ⟨did, attrs, issued, hcheck, hissue, hrest⟩
  · rw [step_eq hsend]
    simpa using hs
  have hfirst := (h did attrs issued hcheck hissue).1
  rcases hrest with ⟨r, hsend, -⟩ | ⟨message, data, credReqMsgId, hprepare, hsend⟩
  · exact recorded_of_first hs hfirst hsend (fun _ h => absurd h (Option.not_mem_none _))
  have hid := IssuerCredential.prepareMessage_credRevocId hprepare
  rcases (IssuerCredential.send world
      (IssuerCredential.countMessage { s.credential with credRevId := issued.2.1 }) data
      credReqMsgId).result_cases with ⟨uid, h⟩ | ⟨e, h⟩
  · rw [IssuerCredential.finishSend_sent h] at hsend
    refine recorded_of_first hs hfirst hsend (fun m hm => ?_)
    rw [← Option.some.inj hm, hid]
    rfl
  · obtain ⟨delivered, hfinish, hmessages⟩ := IssuerCredential.finishSend_failed
      h
    rw [hfinish] at hsend
    refine recorded_of_first hs hfirst hsend (fun m hm => ?_)
    rw [hmessages m hm, hid]
    rfl

end IssuerRun

/-! ### Runs -/

theorem HolderRun.paid_step {s : HolderRun} {world : HolderWorld} (hpaid : s.paid ≤ 1)
    (h : s.PaysFirst world) : (holderMachine.step world s).2.paid ≤ 1 :=
  ((HolderRun.retrySafe_iff hpaid).mpr h).paidOnce

/-- A ledger that confirms each payment, and an agency that answers as given. -/
def payingWorld (sending : Sending) : HolderWorld where
  connection _ := .ok "8XFh8yBzrpJQmNyZzgoTqB"
  getCredDefJson _ := .ok ("cred_def_id", "cred_def")
  createCredentialReq _ _ _ := .ok ("req", "req_meta")
  serializeRequest _ := .ok "request"
  payAPayee price address := .confirmed ⟨price, false, [], [⟨address, price, none⟩]⟩
  encrypt _ _ _ _ := .ok "payload"
  sendSecure _ _ := sending

def pricedOffer : Credential where
  sourceId := "offer"
  state := .requestReceived
  credentialOffer := some ⟨"offer", "cred_def_id", some "msg"⟩
  paymentInfo := some ⟨"one-time", "pay:null:xyz", 10⟩

def issuingWorld (revocId : String) (sending : Sending) : IssuerWorld where
  connectionHandle := 1
  isValidHandle := true
  credKindName := "CRED"
  getAddressBalance _ := .ok 10
  getPwDid := .ok "8XFh8yBzrpJQmNyZzgoTqB"
  encodeAttributes attrs := .ok attrs
  createCredential _ _ _ _ _ := .ok ("cred", some revocId, some "delta")
  serializeCredential _ := .ok "message"
  encrypt _ _ _ _ := .ok "payload"
  sendSecure _ _ := sending

def requestedCredential : IssuerCredential where
  sourceId := "credential"
  credentialAttributes := "attributes"
  state := .requestReceived
  credentialRequest := some {
    libindyCredReq := "req", libindyCredReqMeta := "meta", credDefId := "cred_def_id"
    toDid := "did", fromDid := "did", msgRefId := some "msg" }
  credentialOffer := some ⟨"offer", "cred_def_id", none⟩
  credDefId := "cred_def_id"

end IndySdk.Vcx
