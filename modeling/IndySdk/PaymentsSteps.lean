import IndySdk.PaymentsExecutor

/-!
# What the executor of payment commands can do in one step

A command calls its user back or enters the plugin; it aborts nothing, since its texts came in as C
strings. An acknowledgement calls back whoever waits under its handle.
-/

namespace IndySdk.Payments

open Outcome
open Wallet (WalletCrypto decryptStorageRecord decryptMerged nonceBytes)

variable {crates : PaymentsCrates} {wc : WalletCrypto} {wallets : Wallets} {nextId : ℤ}
  {methods : PaymentsMethods} {s : PaymentsExecutor}

/-! ### What a command asks -/

/-- A call is prepared from safe arguments, under the handle that it is given. -/
def Asking.Prepared (methods : PaymentsMethods) (asking : Asking) : Prop :=
  ∃ type_ entry walletHandle arguments builder,
    (∀ argument ∈ arguments, Argument.Safe argument) ∧ asking.method = fun i =>
      prepareCall methods type_ entry i walletHandle arguments builder

variable {asking : Asking}

theorem Asking.Prepared.ne_panic (h : asking.Prepared methods) (i : ℤ) :
    asking.method i ≠ .panic := by
  obtain ⟨type_, entry, walletHandle, arguments, builder, hsafe, hmethod⟩ := h
  rw [hmethod]
  exact prepareCall_ne_panic hsafe

theorem Asking.Prepared.cmdHandle_eq {call : PluginCall} {i : ℤ} (h : asking.Prepared methods)
    (hcall : asking.method i = .ok call) : call.cmdHandle = i := by
  obtain ⟨type_, entry, walletHandle, arguments, builder, _, hmethod⟩ := h
  rw [hmethod] at hcall
  exact prepareCall_ok hcall

theorem check_ne_panic (walletHandle : ℤ) : check wallets walletHandle ≠ .panic := by
  unfold check
  split
  · exact ok_ne_panic _
  · exact err_ne_panic _

theorem validateSubmitter_ne_panic (submitterDid : Option CText) :
    validateSubmitter crates submitterDid ≠ .panic := by
  cases submitterDid with
  | none => exact ok_ne_panic _
  | some did => exact Crypto.validateDid_ne_panic did.text

theorem mergeParseResult_ne_panic {x y : IndyResult String} (hx : x ≠ .panic) (hy : y ≠ .panic) :
    mergeParseResult x y ≠ .panic := by
  apply bind_ne_panic hx
  intro mth1
  apply bind_ne_panic hy
  intro mth2
  split
  · exact err_ne_panic _
  · exact ok_ne_panic _

theorem checked_ne_panic {submitterDid : Option CText} {walletHandle : ℤ} {α : Type}
    {f : Unit → Unit → IndyResult α} (h : f () () ≠ .panic) :
    (validateSubmitter crates submitterDid >>= fun u => check wallets walletHandle >>= f u) ≠
      .panic := by
  apply bind_ne_panic (validateSubmitter_ne_panic submitterDid)
  intro u
  apply bind_ne_panic (check_ne_panic walletHandle)
  intro v
  exact h

theorem ask_ne_panic (request : PluginRequest) : ask crates wallets methods request ≠ .panic := by
  cases request with
  | createAddress walletHandle type_ config =>
    exact bind_ne_panic (check_ne_panic walletHandle) (fun _ => ok_ne_panic _)
  | addRequestFees walletHandle submitterDid req inputs outputs extra =>
    apply checked_ne_panic
    refine bind_ne_panic ?_ (fun _ => ok_ne_panic _)
    split
    · exact parseMethodFromInputs_ne_panic inputs.text
    · exact mergeParseResult_ne_panic (parseMethodFromInputs_ne_panic inputs.text)
        (parseMethodFromOutputs_ne_panic outputs.text)
  | parseResponseWithFees type_ response => exact ok_ne_panic _
  | buildGetPaymentSourcesRequest walletHandle submitterDid paymentAddress =>
    apply checked_ne_panic
    exact bind_ne_panic (ofOption_ne_panic _ _) (fun _ => ok_ne_panic _)
  | parseGetPaymentSourcesResponse type_ response => exact ok_ne_panic _
  | buildPaymentReq walletHandle submitterDid inputs outputs extra =>
    apply checked_ne_panic
    refine bind_ne_panic ?_ (fun _ => ok_ne_panic _)
    exact mergeParseResult_ne_panic (parseMethodFromInputs_ne_panic inputs.text)
      (parseMethodFromOutputs_ne_panic outputs.text)
  | parsePaymentResponse type_ response => exact ok_ne_panic _
  | buildMintReq walletHandle submitterDid outputs extra =>
    apply checked_ne_panic
    refine bind_ne_panic ?_ (fun _ => ok_ne_panic _)
    exact parseMethodFromOutputs_ne_panic outputs.text
  | buildSetTxnFeesReq walletHandle submitterDid type_ fees =>
    apply checked_ne_panic
    exact bind_ne_panic (ofOption_ne_panic _ _) (fun _ => ok_ne_panic _)
  | buildGetTxnFeesReq walletHandle submitterDid type_ =>
    apply checked_ne_panic
    exact ok_ne_panic _
  | parseGetTxnFeesResponse type_ response => exact ok_ne_panic _
  | buildVerifyPaymentReq walletHandle submitterDid receipt =>
    apply checked_ne_panic
    exact bind_ne_panic (ofOption_ne_panic _ _) (fun _ => ok_ne_panic _)
  | parseVerifyPaymentResponse type_ respJson => exact ok_ne_panic _

theorem of_checked {submitterDid : Option CText} {walletHandle : ℤ} {α : Type} {a : α}
    {f : Unit → Unit → IndyResult α}
    (h : (validateSubmitter crates submitterDid >>= fun u => check wallets walletHandle >>= f u) =
      .ok a) : f () () = .ok a := by
  obtain ⟨u, _, h⟩ := bind_eq_ok_iff.mp h
  obtain ⟨v, _, h⟩ := bind_eq_ok_iff.mp h
  exact h

theorem ask_prepared {request : PluginRequest}
    (h : ask crates wallets methods request = .ok asking) : asking.Prepared methods := by
  cases request with
  | createAddress walletHandle type_ config =>
    obtain ⟨_, _, h⟩ := bind_eq_ok_iff.mp h
    cases h
    exact ⟨_, _, _, _, _, by simp, rfl⟩
  | addRequestFees walletHandle submitterDid req inputs outputs extra =>
    obtain ⟨type_, _, h⟩ := bind_eq_ok_iff.mp (of_checked h)
    cases h
    exact ⟨_, _, _, _, _, by simp, rfl⟩
  | buildGetPaymentSourcesRequest walletHandle submitterDid paymentAddress =>
    obtain ⟨method, _, h⟩ := bind_eq_ok_iff.mp (of_checked h)
    cases h
    exact ⟨_, _, _, _, _, by simp, rfl⟩
  | buildPaymentReq walletHandle submitterDid inputs outputs extra =>
    obtain ⟨type_, _, h⟩ := bind_eq_ok_iff.mp (of_checked h)
    cases h
    exact ⟨_, _, _, _, _, by simp, rfl⟩
  | buildMintReq walletHandle submitterDid outputs extra =>
    obtain ⟨type_, _, h⟩ := bind_eq_ok_iff.mp (of_checked h)
    cases h
    exact ⟨_, _, _, _, _, by simp, rfl⟩
  | buildSetTxnFeesReq walletHandle submitterDid type_ fees =>
    obtain ⟨_, _, h⟩ := bind_eq_ok_iff.mp (of_checked h)
    cases h
    exact ⟨_, _, _, _, _, by simp, rfl⟩
  | buildGetTxnFeesReq walletHandle submitterDid type_ =>
    cases of_checked h
    exact ⟨_, _, _, _, _, by simp, rfl⟩
  | buildVerifyPaymentReq walletHandle submitterDid receipt =>
    obtain ⟨method, _, h⟩ := bind_eq_ok_iff.mp (of_checked h)
    cases h
    exact ⟨_, _, _, _, _, by simp, rfl⟩
  | parseResponseWithFees type_ response | parseGetPaymentSourcesResponse type_ response
  | parsePaymentResponse type_ response | parseGetTxnFeesResponse type_ response
  | parseVerifyPaymentResponse type_ response =>
    cases h
    exact ⟨_, _, _, _, _, by simp, rfl⟩

/-- What a command asks a plugin, with the callback that waits for the reply. -/
def Asks (crates : PaymentsCrates) (wallets : Wallets) (methods : PaymentsMethods) (nextId : ℤ)
    (cmd : UserCommand) (entered : Entered) : Prop :=
  ∃ request asking, cmd.request = .plugin request ∧
    ask crates wallets methods request = .ok asking ∧ asking.method nextId = .ok entered.call ∧
    entered.callback = ⟨cmd.cb, asking.type_⟩

theorem Asks.cmdHandle_eq {cmd : UserCommand} {entered : Entered}
    (h : Asks crates wallets methods nextId cmd entered) : entered.call.cmdHandle = nextId := by
  obtain ⟨request, asking, _, hask, hcall, _⟩ := h
  exact (ask_prepared hask).cmdHandle_eq hcall

theorem Asks.cb_eq {cmd : UserCommand} {entered : Entered}
    (h : Asks crates wallets methods nextId cmd entered) : entered.callback.cb = cmd.cb := by
  obtain ⟨request, asking, _, _, _, hcallback⟩ := h
  rw [hcallback]

/-! ### Listing addresses -/

variable {keys : Wallet.Keys} {rows : List (Except IndyError StoredRow)} {row : StoredRow}

/-- Every record that a search comes to is decrypted or refused. -/
def Decodable (wc : WalletCrypto) (keys : Wallet.Keys) : List (Except IndyError StoredRow) → Prop
  | .ok row :: rows => decryptStorageRecord wc keys (row.retrieve idValue) ≠ .panic ∧
      ∀ record, decryptStorageRecord wc keys (row.retrieve idValue) = .ok record →
        Decodable wc keys rows
  | _ => True

theorem decryptMerged_ne_panic {data : Bytes} {key : Wallet.Key}
    (h : nonceBytes ≤ data.length) : decryptMerged wc data key ≠ .panic := by
  rw [decryptMerged, dif_pos h]
  exact ofOption_ne_panic _ _

theorem retrieve_ne_panic (hname : nonceBytes ≤ row.name.length)
    (hkey : nonceBytes ≤ row.value.key.length) (hdata : nonceBytes ≤ row.value.data.length) :
    decryptStorageRecord wc keys (row.retrieve idValue) ≠ .panic := by
  apply bind_ne_panic (decryptMerged_ne_panic hname)
  intro nameBytes
  apply bind_ne_panic (ofOption_ne_panic _ _)
  intro name
  refine bind_ne_panic ?_ (fun _ => ok_ne_panic _)
  apply map_ne_panic
  apply bind_ne_panic (decryptMerged_ne_panic hkey)
  intro valueKeyBytes
  refine bind_ne_panic ?_ ?_
  · unfold Wallet.Key.fromSlice
    split
    · exact ok_ne_panic _
    · exact err_ne_panic _
  · intro valueKey
    apply bind_ne_panic (decryptMerged_ne_panic hdata)
    intro data
    exact ofOption_ne_panic _ _

theorem retrieve_value {record : Wallet.WalletRecord}
    (h : decryptStorageRecord wc keys (row.retrieve idValue) = .ok record) :
    ∃ value, record.value = some value := by
  obtain ⟨nameBytes, _, h⟩ := bind_eq_ok_iff.mp h
  obtain ⟨name, _, h⟩ := bind_eq_ok_iff.mp h
  obtain ⟨value, hvalue, h⟩ := bind_eq_ok_iff.mp h
  obtain ⟨type_, _, h⟩ := bind_eq_ok_iff.mp h
  obtain ⟨tags, _, h⟩ := bind_eq_ok_iff.mp h
  cases h
  obtain ⟨text, _, rfl⟩ := map_eq_ok_iff.mp hvalue
  exact ⟨text, rfl⟩

theorem fetchAddresses_ok {cb : ℕ} (h : Decodable wc keys rows) (addresses : List String) :
    ∃ listed, fetchAddresses wc keys cb rows addresses = .ok ([], listed) := by
  induction rows generalizing addresses with
  | nil => exact ⟨addresses, rfl⟩
  | cons fetch rows ih =>
    cases fetch with
    | error err => exact ⟨addresses, rfl⟩
    | ok row =>
      cases hrow : decryptStorageRecord wc keys (row.retrieve idValue) with
      | panic => exact absurd hrow h.1
      | err err =>
        refine ⟨addresses, ?_⟩
        rw [fetchAddresses, hrow]
      | ok record =>
        obtain ⟨value, hvalue⟩ := retrieve_value hrow
        obtain ⟨listed, hlisted⟩ := ih (h.2 record hrow) (addresses ++ [value])
        refine ⟨listed, ?_⟩
        rw [fetchAddresses, hrow]
        dsimp only
        rw [hvalue]
        exact hlisted

theorem decodable_of_fetched {cb : ℕ} {addresses : List String}
    (h : fetchAddresses wc keys cb rows addresses ≠ .panic) : Decodable wc keys rows := by
  induction rows generalizing addresses with
  | nil => trivial
  | cons fetch rows ih =>
    cases fetch with
    | error err => trivial
    | ok row =>
      constructor
      · intro hrow
        apply h
        rw [fetchAddresses, hrow]
      · intro record hrow
        obtain ⟨value, hvalue⟩ := retrieve_value hrow
        rw [fetchAddresses, hrow] at h
        dsimp only at h
        rw [hvalue] at h
        exact ih h

theorem fetchAddresses_ne_panic_iff {cb : ℕ} {addresses : List String} :
    fetchAddresses wc keys cb rows addresses ≠ .panic ↔ Decodable wc keys rows := by
  refine ⟨decodable_of_fetched, ?_⟩
  intro h
  obtain ⟨listed, hlisted⟩ := @fetchAddresses_ok wc keys rows cb h addresses
  rw [hlisted]
  exact ok_ne_panic _

/-- The records of a search of addresses can be read or refused. -/
def Listable (wc : WalletCrypto) (wallets : Wallets) : PaymentsRequest → Prop
  | .listAddresses walletHandle => ∀ wallet rows, wallets walletHandle = some wallet →
      wallet.search = .ok rows → Decodable wc wallet.keys rows
  | _ => True

theorem listAddresses_eq {walletHandle : ℤ} {cb : ℕ}
    (h : Listable wc wallets (.listAddresses walletHandle)) :
    ∃ answer, listAddresses wc wallets s walletHandle cb = s.call cb answer := by
  unfold listAddresses
  cases hwallet : wallets walletHandle with
  | none => exact ⟨_, rfl⟩
  | some wallet =>
    dsimp only
    cases hsearch : wallet.search with
    | error err => exact ⟨_, rfl⟩
    | ok rows =>
      obtain ⟨listed, hlisted⟩ := @fetchAddresses_ok wc wallet.keys rows cb
        (h wallet rows hwallet hsearch) []
      dsimp only
      rw [hlisted]
      exact ⟨_, rfl⟩

/-! ### Executing -/

theorem execute_cases {cmd : UserCommand} (h : Listable wc wallets cmd.request) :
    (∃ methods answer, execute crates wc wallets nextId s cmd =
      PaymentsExecutor.call { s with methods := methods } cmd.cb answer) ∨
    ∃ entered, Asks crates wallets s.methods nextId cmd entered ∧
      execute crates wc wallets nextId s cmd = ([.callPlugin entered.call], { s with
        callbacks := s.callbacks.insert nextId entered.call.builder
        calling := some entered }) := by
  obtain ⟨request, cb⟩ := cmd
  cases request with
  | registerMethod type_ methodCbs => exact .inl ⟨_, _, rfl⟩
  | listAddresses walletHandle =>
    obtain ⟨answer, hanswer⟩ := @listAddresses_eq wc wallets s walletHandle cb h
    exact .inl ⟨s.methods, answer, hanswer⟩
  | plugin request =>
    unfold execute
    dsimp only
    cases hask : ask crates wallets s.methods request with
    | panic => exact absurd hask (ask_ne_panic request)
    | err err => exact .inl ⟨s.methods, _, rfl⟩
    | ok asking =>
      dsimp only
      unfold processMethod
      cases hcall : asking.method nextId with
      | panic => exact absurd hcall ((ask_prepared hask).ne_panic nextId)
      | err err => exact .inl ⟨s.methods, _, rfl⟩
      | ok call =>
        exact .inr ⟨⟨call, ⟨cb, asking.type_⟩⟩, ⟨request, asking, rfl, hask, hcall, rfl⟩, rfl⟩

def Effect.answer : Effect → Option (ℕ × Except IndyError Answer)
  | .callback cb answer => some (cb, answer)
  | _ => none

/-- The callbacks that are invoked, with what they receive. -/
def answers (effects : List Effect) : List (ℕ × Except IndyError Answer) :=
  effects.filterMap Effect.answer

/-- What a reply comes to: an address must be stored before it is passed on. -/
def received (wallets : Wallets) (builder : AckBuilder) (reply : Except IndyError String) :
    Except IndyError String :=
  match builder, reply with
  | .createAddressAck walletHandle, .ok address => storedAddress wallets walletHandle address
  | _, _ => reply

theorem executeAck_eq {ack : Ack} {callback : PendingCallback}
    (h : s.pendingCallbacks.lookup ack.cmdHandle = some callback) :
    answers (executeAck wallets s ack).1 =
        [(callback.cb, callback.answer (received wallets ack.builder ack.result))] ∧
      (executeAck wallets s ack).2 =
        { s with pendingCallbacks := s.pendingCallbacks.erase ack.cmdHandle } := by
  have hcommon : ∀ result name, commonAck s ack.cmdHandle result name = PaymentsExecutor.call
      { s with pendingCallbacks := s.pendingCallbacks.erase ack.cmdHandle } callback.cb
        (callback.answer result) := by
    intro result name
    rw [commonAck, h]
  obtain ⟨builder, cmdHandle, result⟩ := ack
  cases builder with
  | ack entry =>
    rw [executeAck]
    dsimp only
    rw [hcommon]
    cases result <;> exact ⟨rfl, rfl⟩
  | createAddressAck walletHandle =>
    rw [executeAck]
    dsimp only
    cases result with
    | ok address =>
      rw [createAddressAck, hcommon]
      exact ⟨rfl, rfl⟩
    | error err =>
      rw [createAddressAck, hcommon]
      exact ⟨rfl, rfl⟩

end IndySdk.Payments
