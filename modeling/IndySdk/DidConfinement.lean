import IndySdk.DidSteps
import IndySdk.JsonReader

/-!
# Which records an acknowledgement creates

The record is stored under the DID that stands in the reply. It is the DID that was asked for only
if the reply says so: a valid record of another DID is stored as well.
-/

namespace IndySdk.DidResolution

open Domain Function Outcome

/-- Nothing is added to the wallets but, perhaps, a record of one DID that had none. -/
def OnlyTheirDidAdded (before after : WalletHandle → Option DidWallet) (handle : WalletHandle)
    (did : String) : Prop :=
  after = before ∨ ∃ wallet theirDid, before handle = some wallet ∧ wallet.theirDids did = none ∧
    theirDid.did = did ∧
    after = Function.update before handle (some (wallet.insertTheirDid theirDid))

def OnlyEndpointAdded (before after : WalletHandle → Option DidWallet) (handle : WalletHandle)
    (did : String) : Prop :=
  after = before ∨ ∃ wallet endpoint, before handle = some wallet ∧ wallet.endpoints did = none ∧
    after = Function.update before handle (some (wallet.insertEndpoint did endpoint))

/-- A command ended with an error, and the wallets are as they were. -/
def Refused (s : DidExecutor) (cb : ℕ) (executed : Executed) : Prop :=
  executed.2.wallets = s.wallets ∧ ∃ err, executed.1 = [.callback cb (.error err)]

variable (crates : DidCrates) (storage : StorageFailures) (nextId : ℤ) (s : DidExecutor)
  (walletHandle : WalletHandle) (reply : String) (id : ℤ)

/-- A reply to GET_NYM that is acknowledged for a command about a DID. -/
structure NymAckConfined (did : String) (cb : ℕ) : Prop where
  added : OnlyTheirDidAdded s.wallets
    (getNymAck crates storage nextId s walletHandle (.ok reply) id).2.wallets walletHandle did
  refused : ∀ info, meantNymReply crates reply = .ok info → info.did ≠ did →
    Refused s cb (getNymAck crates storage nextId s walletHandle (.ok reply) id)

structure AttribAckConfined (did : String) (cb : ℕ) : Prop where
  added : OnlyEndpointAdded s.wallets
    (getAttribAck crates storage nextId s walletHandle (.ok reply) id).2.wallets walletHandle did
  refused : ∀ did' raw, readAttribReply crates reply = .ok (did', raw) → did' ≠ did →
    Refused s cb (getAttribAck crates storage nextId s walletHandle (.ok reply) id)

variable {crates storage nextId s walletHandle reply id} {wallet : DidWallet} {did : String}

theorem refused_of_error {cmd : DidCommand} {err : IndyError}
    (h : s.deferredCommands.lookup id = some cmd) :
    Refused s cmd.cb (acknowledged crates storage nextId id (.error err, s)) := by
  rw [acknowledged_error h]
  exact ⟨rfl, err, rfl⟩

theorem insertTheirDid_other {theirDid theirDid' : Crypto.TheirDid}
    (hnone : wallet.theirDids theirDid.did = none)
    (h : wallet.insertTheirDid theirDid = wallet.insertTheirDid theirDid') :
    theirDid.did = theirDid'.did := by
  by_contra hne
  have hrecord := congrFun (congrArg DidWallet.theirDids h) theirDid.did
  simp only [DidWallet.insertTheirDid, update_self, update_of_ne hne, hnone]
    at hrecord
  cases hrecord

theorem insertEndpoint_other {did' : String} {endpoint endpoint' : Endpoint}
    (hnone : wallet.endpoints did = none)
    (h : wallet.insertEndpoint did endpoint = wallet.insertEndpoint did' endpoint') :
    did = did' := by
  by_contra hne
  have hrecord := congrFun (congrArg DidWallet.endpoints h) did
  simp only [DidWallet.insertEndpoint, update_self, update_of_ne hne, hnone]
    at hrecord
  cases hrecord

theorem insertTheirDid_ne {theirDid : Crypto.TheirDid}
    (hnone : wallet.theirDids theirDid.did = none) : wallet.insertTheirDid theirDid ≠ wallet := by
  intro h
  have hrecord := congrFun (congrArg DidWallet.theirDids h) theirDid.did
  simp only [DidWallet.insertTheirDid, update_self, hnone] at hrecord
  cases hrecord

theorem insertEndpoint_ne {endpoint : Endpoint} (hnone : wallet.endpoints did = none) :
    wallet.insertEndpoint did endpoint ≠ wallet := by
  intro h
  have hrecord := congrFun (congrArg DidWallet.endpoints h) did
  simp only [DidWallet.insertEndpoint, update_self, hnone] at hrecord
  cases hrecord

theorem update_wallet_inj {wallets : WalletHandle → Option DidWallet} {wallet' : DidWallet}
    (h : Function.update wallets walletHandle (some wallet) =
      Function.update wallets walletHandle (some wallet')) : wallet = wallet' := by
  have hat := congrFun h walletHandle
  rw [update_self, update_self] at hat
  exact Option.some.inj hat

theorem acknowledged_add_cases {α : Type} {cmd : DidCommand}
    (hcmd : s.deferredCommands.lookup id = some cmd) (op : DidOperation) (type_ name : String)
    (select : DidWallet → Option α) (insert : DidWallet → DidWallet) :
    (Refused s cmd.cb (acknowledged crates storage nextId id
        (addIndyObject storage s walletHandle op type_ name select insert)) ∧
      ∀ wallet, s.wallets walletHandle = some wallet → storage.failure op = none →
        select wallet ≠ none) ∨
      ∃ wallet, s.wallets walletHandle = some wallet ∧ storage.failure op = none ∧
        select wallet = none ∧ (acknowledged crates storage nextId id
          (addIndyObject storage s walletHandle op type_ name select insert)).2.wallets =
            Function.update s.wallets walletHandle (some (insert wallet)) := by
  obtain ⟨err, hadd, hfull⟩ | ⟨wallet, hwallet, hop, hnone, hadd⟩ :=
    @addIndyObject_cases storage s α walletHandle op type_ name select insert
  · rw [hadd]
    exact .inl ⟨refused_of_error hcmd, hfull⟩
  · refine .inr ⟨wallet, hwallet, hop, hnone, ?_⟩
    rw [hadd, acknowledged_wallets]
    rfl

theorem nymAck_confined_iff {poolHandle : ℤ} {cb : ℕ}
    (hcmd : s.deferredCommands.lookup id = some (.keyForDid poolHandle walletHandle did cb)) :
    NymAckConfined crates storage nextId s walletHandle reply id did cb ↔
      ∀ theirDid wallet, theirDidOfReply crates reply = .ok theirDid →
        s.wallets walletHandle = some wallet → storage.failure .addTheirDid = none →
        wallet.theirDids theirDid.did = none → theirDid.did = did := by
  have hcases := fun theirDid : Crypto.TheirDid =>
    @acknowledged_add_cases crates storage nextId s walletHandle id _ _ hcmd .addTheirDid
      "Indy::TheirDid" theirDid.did (fun wallet => wallet.theirDids theirDid.did)
      (fun wallet => wallet.insertTheirDid theirDid)
  constructor
  · intro h theirDid wallet hreply hwallet hop hnone
    have hadded := h.added
    simp only [getNymAck, hreply, addTheirDid] at hadded
    obtain ⟨_, hfull⟩ | ⟨wallet', hwallet', _, _, hstored⟩ := hcases theirDid
    · exact absurd hnone (hfull wallet hwallet hop)
    · rw [hstored] at hadded
      obtain hsame | ⟨wallet'', theirDid', hwallet'', _, hdid', hafter⟩ := hadded
      · have hat := congrFun hsame walletHandle
        rw [update_self, hwallet'] at hat
        rw [hwallet'] at hwallet
        cases hwallet
        exact absurd (Option.some.inj hat) (insertTheirDid_ne hnone)
      · rw [hwallet] at hwallet' hwallet''
        cases hwallet'
        cases hwallet''
        rw [← hdid']
        exact insertTheirDid_other hnone (update_wallet_inj hafter)
  · intro hcond
    cases hreply : theirDidOfReply crates reply with
    | panic =>
      constructor
      · simp only [getNymAck, hreply]
        exact .inl rfl
      · intro info hmeant
        rw [meant_of_panic hreply] at hmeant
        cases hmeant
    | err err =>
      have hrefused := @refused_of_error crates storage nextId s id _ err hcmd
      constructor
      · simp only [getNymAck, hreply]
        exact .inl hrefused.1
      · intro info _ _
        simp only [getNymAck, hreply]
        exact hrefused
    | ok theirDid =>
      obtain ⟨info, _, hmeant, _, hdid⟩ := theirDidOfReply_ok hreply
      obtain ⟨hrefused, _⟩ | ⟨wallet, hwallet, hop, hnone, hstored⟩ := hcases theirDid
      · constructor
        · simp only [getNymAck, hreply]
          exact .inl hrefused.1
        · intro info' _ _
          simp only [getNymAck, hreply]
          exact hrefused
      · have hasked := hcond theirDid wallet hreply hwallet hop hnone
        constructor
        · simp only [getNymAck, hreply]
          rw [hasked] at hnone
          exact .inr ⟨wallet, theirDid, hwallet, hnone, hasked, hstored⟩
        · intro info' hmeant' hne
          rw [hmeant] at hmeant'
          cases hmeant'
          exact absurd (hdid.symm.trans hasked) hne

theorem attribAck_confined_iff {poolHandle : ℤ} {cb : ℕ} (hcmd : s.deferredCommands.lookup id =
      some (.getEndpointForDid walletHandle poolHandle did cb)) :
    AttribAckConfined crates storage nextId s walletHandle reply id did cb ↔
      ∀ did' endpoint wallet, endpointOfReply crates reply = .ok (did', endpoint) →
        s.wallets walletHandle = some wallet → storage.failure .addEndpoint = none →
        wallet.endpoints did' = none → did' = did := by
  have hcases := fun (did' : String) (endpoint : Endpoint) =>
    @acknowledged_add_cases crates storage nextId s walletHandle id _ _ hcmd .addEndpoint
      "Indy::Endpoint" did' (fun wallet => wallet.endpoints did')
      (fun wallet => wallet.insertEndpoint did' endpoint)
  constructor
  · intro h did' endpoint wallet hreply hwallet hop hnone
    have hadded := h.added
    simp only [getAttribAck, hreply, addEndpoint] at hadded
    obtain ⟨_, hfull⟩ | ⟨wallet', hwallet', _, _, hstored⟩ := hcases did' endpoint
    · exact absurd hnone (hfull wallet hwallet hop)
    · rw [hstored] at hadded
      obtain hsame | ⟨wallet'', endpoint', hwallet'', _, hafter⟩ := hadded
      · have hat := congrFun hsame walletHandle
        rw [update_self, hwallet'] at hat
        rw [hwallet'] at hwallet
        cases hwallet
        exact absurd (Option.some.inj hat) (insertEndpoint_ne hnone)
      · rw [hwallet] at hwallet' hwallet''
        cases hwallet'
        cases hwallet''
        exact insertEndpoint_other hnone (update_wallet_inj hafter)
  · intro hcond
    cases hreply : endpointOfReply crates reply with
    | panic =>
      constructor
      · simp only [getAttribAck, hreply]
        exact .inl rfl
      · intro did' raw hread
        rw [read_of_panic hreply] at hread
        cases hread
    | err err =>
      have hrefused := @refused_of_error crates storage nextId s id _ err hcmd
      constructor
      · simp only [getAttribAck, hreply]
        exact .inl hrefused.1
      · intro did' raw _ _
        simp only [getAttribAck, hreply]
        exact hrefused
    | ok pair =>
      obtain ⟨did', endpoint⟩ := pair
      obtain ⟨raw, hread⟩ := endpointOfReply_ok hreply
      obtain ⟨hrefused, _⟩ | ⟨wallet, hwallet, hop, hnone, hstored⟩ := hcases did' endpoint
      · constructor
        · simp only [getAttribAck, hreply]
          exact .inl hrefused.1
        · intro _ _ _ _
          simp only [getAttribAck, hreply]
          exact hrefused
      · have hasked := hcond did' endpoint wallet hreply hwallet hop hnone
        constructor
        · simp only [getAttribAck, hreply]
          cases hasked
          exact .inr ⟨wallet, endpoint, hwallet, hnone, hstored⟩
        · intro did'' raw' hread' hne
          rw [hread] at hread'
          cases hread'
          exact absurd hasked hne

/-- Acknowledgements touch only the record that was asked for, and refuse replies about other DIDs,
exactly where no valid record of another DID comes to a wallet without one. -/
theorem acks_confined_iff (crates : DidCrates) (storage : StorageFailures) (nextId : ℤ)
    (s : DidExecutor) (walletHandle : WalletHandle) (reply : String) (id poolHandle : ℤ)
    (did : String) (cb : ℕ) :
    (s.deferredCommands.lookup id = some (.keyForDid poolHandle walletHandle did cb) →
      (NymAckConfined crates storage nextId s walletHandle reply id did cb ↔
        ∀ theirDid wallet, theirDidOfReply crates reply = .ok theirDid →
          s.wallets walletHandle = some wallet → storage.failure .addTheirDid = none →
          wallet.theirDids theirDid.did = none → theirDid.did = did)) ∧
    (s.deferredCommands.lookup id = some (.getEndpointForDid walletHandle poolHandle did cb) →
      (AttribAckConfined crates storage nextId s walletHandle reply id did cb ↔
        ∀ did' endpoint wallet, endpointOfReply crates reply = .ok (did', endpoint) →
          s.wallets walletHandle = some wallet → storage.failure .addEndpoint = none →
          wallet.endpoints did' = none → did' = did)) := by
  constructor
  · intro hcmd
    exact nymAck_confined_iff hcmd
  · intro hcmd
    exact attribAck_confined_iff hcmd

/-! ### A ledger that knows two DIDs -/

def aliceDid : String := "NcYxiDXkpYi6ov5FcYDi1e"

def bobDid : String := "8wZcEriaNLNKtteJvx7f8i"

def bobVerkey : String := "5L2HBnzbu6Auh2pkDRbFt5f4prvgE2LzknkuYLsKkacp"

/-- The base58 texts of the example. -/
def exampleBase58 : Crypto.Base58 where
  fromBase58 doc :=
    if doc = aliceDid then
      .ok (Bytes.ofNat 16 232649377073786562051469161228462837017)
    else if doc = bobDid then
      .ok (Bytes.ofNat 16 85476781621143463392337161548288395863)
    else if doc = bobVerkey then
      .ok (Bytes.ofNat 32
        29086241566826869276549155208639882490521641228309038744157736462075282443545)
    else .error "Invalid base58 byte"
  toBase58 _ := ""

def nymData (did : String) : Json := .obj [("dest", .str did), ("verkey", .str bobVerkey)]

/-- A version 0 reply, whose data is a text of its own. -/
def nymReplyFor (did : String) : Json :=
  .obj [("result", .obj [("data", .str (nymData did).text)])]

/-- A parser of the texts of the example. -/
def exampleCrates : DidCrates where
  base58 := exampleBase58
  fromStr text :=
    [nymData aliceDid, nymData bobDid, nymReplyFor aliceDid, nymReplyFor bobDid].find?
      (fun j => j.text = text)

theorem exampleCrates_fromStr {j : Json}
    (hj : j ∈ [nymData aliceDid, nymData bobDid, nymReplyFor aliceDid, nymReplyFor bobDid]) :
    exampleCrates.fromStr j.text = some j := by
  refine Json.find?_text ?_ hj
  decide

theorem decode_nymReplyFor (did : String) :
    TypedReply.decode GetNymReplyResult.decode (nymReplyFor did) =
      some (.replyV0 (.getNymReplyResultV0 ⟨some (nymData did).text⟩)) := rfl

theorem parseNymReply_for {did : String} (hdata : nymData did ∈ [nymData aliceDid, nymData bobDid])
    (hreply : nymReplyFor did ∈ [nymReplyFor aliceDid, nymReplyFor bobDid]) :
    parseNymReply exampleCrates (nymReplyFor did).text = .ok ⟨did, some bobVerkey⟩ := by
  have hdata := exampleCrates_fromStr (List.mem_append_left _ hdata)
  have hreply := exampleCrates_fromStr (List.mem_append_right [_, _] hreply)
  have hdecode : GetNymResultDataV0.decode (nymData did) =
      some ⟨none, did, none, some bobVerkey⟩ := rfl
  rw [parseNymReply, readNymReply, hreply, Option.bind_some, decode_nymReplyFor, ofOption, ok_bind,
    TypedReply.result, ok_bind, theirDidInfo]
  dsimp only
  rw [hdata, Option.bind_some, hdecode]
  rfl

theorem theirDidOfReply_alice :
    theirDidOfReply exampleCrates (nymReplyFor aliceDid).text = .ok ⟨aliceDid, bobVerkey⟩ := by
  rw [theirDidOfReply, parseNymReply_for (by simp) (by simp)]
  decide +kernel

theorem theirDidOfReply_bob :
    theirDidOfReply exampleCrates (nymReplyFor bobDid).text = .ok ⟨bobDid, bobVerkey⟩ := by
  rw [theirDidOfReply, parseNymReply_for (by simp) (by simp)]
  rfl

def emptyWallet : DidWallet := ⟨fun _ => none, fun _ => none, fun _ => none⟩

/-- A command about the first DID waits for the ledger. -/
def waitingExecutor : DidExecutor where
  wallets handle := if handle = 1 then some emptyWallet else none
  deferredCommands := (∅ : AssocMap ℤ DidCommand).insert 7 (.keyForDid 2 1 aliceDid 5)
  panicked := false

theorem aliceReply_confined :
    NymAckConfined exampleCrates .none 8 waitingExecutor 1 (nymReplyFor aliceDid).text 7 aliceDid
      5 := by
  refine ((acks_confined_iff exampleCrates .none 8 waitingExecutor 1 (nymReplyFor aliceDid).text 7 2
    aliceDid 5).1 rfl).mpr ?_
  intro theirDid wallet hreply _ _ _
  rw [theirDidOfReply_alice] at hreply
  cases hreply
  rfl

/-- The reply about the other DID is stored, and it is not what the command asked for. -/
theorem bobReply_not_confined :
    ¬ NymAckConfined exampleCrates .none 8 waitingExecutor 1 (nymReplyFor bobDid).text 7 aliceDid
      5 := by
  intro h
  have hasked : bobDid = aliceDid :=
    (nymAck_confined_iff rfl).mp h ⟨bobDid, bobVerkey⟩ emptyWallet theirDidOfReply_bob rfl rfl rfl
  exact absurd hasked (by decide)

end IndySdk.DidResolution
