import IndySdk.DidConfinement
import IndySdk.Obligations

/-!
# Every deferred command is resolved

Whatever the order of commands and replies, a command waits for exactly one acknowledgement, which
calls it back. This needs replies that lead to the record of the DID asked for: where a reply stores
another one, the command would be deferred a second time, which aborts the thread.
-/

namespace IndySdk.DidResolution

open Domain AssocMap Function List AList Machine

variable (crates : DidCrates) (storage : StorageFailures)

/-- The ledger says in a reply that a DID has this key. -/
def CarriesKey (reply did : String) (theirDid : Crypto.TheirDid) : Prop :=
  ∃ info, meantNymReply crates reply = .ok info ∧ info.did = did ∧
    Crypto.createTheirDid crates.base58 info = .ok theirDid

def CarriesEndpoint (reply did : String) (endpoint : Endpoint) : Prop :=
  endpointOfReply crates reply = .ok (did, endpoint)

/-- The answer to a command is what the reply carried for its DID. -/
def Receives (reply : String) (answer : Except IndyError Answer) : DidCommand → Prop
  | .keyForDid _ _ did _ =>
    ∀ theirDid, CarriesKey crates reply did theirDid → answer = .ok (.key theirDid.verkey)
  | .getEndpointForDid _ _ did _ =>
    ∀ endpoint, CarriesEndpoint crates reply did endpoint →
      answer = .ok (.endpoint endpoint.ha endpoint.verkey)

/-- A reply lists a result, its key is seen and can be stored, and if it stores the record of
another DID, the wallet has one of the DID asked for. -/
def NymReplyProper (wallets : WalletHandle → Option DidWallet) (walletHandle : WalletHandle)
    (did reply : String) : Prop :=
  theirDidOfReply crates reply ≠ .panic ∧
  (∀ theirDid wallet, CarriesKey crates reply did theirDid → wallets walletHandle = some wallet →
    parseNymReply crates reply = meantNymReply crates reply ∧ wallet.theirDids did = none ∧
      storage.failure .addTheirDid = none ∧ storage.failure .getMyDid = none ∧
      storage.failure .getTheirDid = none) ∧
  (∀ theirDid wallet, theirDidOfReply crates reply = .ok theirDid → theirDid.did ≠ did →
    wallets walletHandle = some wallet → storage.failure .addTheirDid = none →
    wallet.theirDids theirDid.did = none → storage.failure .getMyDid = none →
    storage.failure .getTheirDid = none → wallet.theirDids did ≠ none)

def AttribReplyProper (wallets : WalletHandle → Option DidWallet) (walletHandle : WalletHandle)
    (did reply : String) : Prop :=
  endpointOfReply crates reply ≠ .panic ∧
  (∀ endpoint wallet, CarriesEndpoint crates reply did endpoint →
    wallets walletHandle = some wallet → wallet.endpoints did = none ∧
      storage.failure .addEndpoint = none ∧ storage.failure .getEndpoint = none) ∧
  (∀ did' endpoint wallet, endpointOfReply crates reply = .ok (did', endpoint) → did' ≠ did →
    wallets walletHandle = some wallet → storage.failure .addEndpoint = none →
    wallet.endpoints did' = none → storage.failure .getEndpoint = none →
    wallet.endpoints did ≠ none)

def ReplyProper (wallets : WalletHandle → Option DidWallet) (reply : String) : DidCommand → Prop
  | .keyForDid _ walletHandle did _ =>
    NymReplyProper crates storage wallets walletHandle did reply
  | .getEndpointForDid walletHandle _ did _ =>
    AttribReplyProper crates storage wallets walletHandle did reply

/-- Identifiers are not given out twice at a time, and replies are proper for their commands. -/
def Proper (s : DidSystem) (input : DidInput) : Prop :=
  match input.event with
  | .command _ => input.nextId ∉ s.executor.deferredCommands
  | .reply i result => ∀ ack cmd reply, s.inFlight[i]? = some ack →
      s.executor.deferredCommands.lookup ack.deferredCmdId = some cmd → result = .ok reply →
      ReplyProper crates input.storage s.executor.wallets reply cmd

/-! ### What is owed -/

def owed (s : DidSystem) : Multiset ℕ := s.executor.deferredCommands.values.map DidCommand.cb

def due (input : DidInput) : Multiset ℕ :=
  match input.event with
  | .command cmd => {cmd.cb}
  | .reply _ _ => 0

def calls (effects : List Effect) : List ℕ :=
  effects.filterMap (fun effect => match effect with
    | .callback cb _ => some cb
    | .submitRequest _ _ _ => none)

def settled (effects : List Effect) : Multiset ℕ := calls effects

/-- A command in the map got there because the wallet is open and lacks its record. -/
def Deferrable (wallets : WalletHandle → Option DidWallet) : DidCommand → Prop
  | .keyForDid _ walletHandle did _ => Crypto.validateDid crates.base58 did = .ok () ∧
      ∃ wallet, wallets walletHandle = some wallet ∧ wallet.dids did = none
  | .getEndpointForDid walletHandle _ did _ => Crypto.validateDid crates.base58 did = .ok () ∧
      ∃ wallet, wallets walletHandle = some wallet

/-- The requests in flight and the deferred commands belong together. -/
structure DidSystem.Coherent (s : DidSystem) : Prop where
  alive : s.executor.panicked = false
  nodup : (s.inFlight.map Ack.deferredCmdId).Nodup
  waiting : ∀ ack ∈ s.inFlight, ∃ cmd,
    s.executor.deferredCommands.lookup ack.deferredCmdId = some cmd ∧
      ack = ackOf ack.deferredCmdId cmd ∧ Deferrable crates s.executor.wallets cmd
  asked : ∀ id ∈ s.executor.deferredCommands, ∃ ack ∈ s.inFlight, ack.deferredCmdId = id

/-- One step of a run in which everything is resolved. -/
structure Resolved (s : DidSystem) (input : DidInput) : Prop where
  alive : ((didMachine crates).step input s).2.executor.panicked = false
  balanced : (didMachine crates).Balanced owed due settled s input
  answered : ∀ i result ack cmd, input.event = .reply i result → s.inFlight[i]? = some ack →
    s.executor.deferredCommands.lookup ack.deferredCmdId = some cmd →
    ∃ answer, ((didMachine crates).step input s).1 = [.callback cmd.cb answer] ∧
      ∀ reply, result = .ok reply → Receives crates reply answer cmd

variable {crates storage} {nextId id : ℤ} {s : DidExecutor} {walletHandle : WalletHandle}

/-! ### Acknowledgements -/

/-- Wallets stay open, with the DIDs of their owners as they were. -/
def Kept (before after : WalletHandle → Option DidWallet) : Prop :=
  ∀ handle wallet, before handle = some wallet →
    ∃ wallet', after handle = some wallet' ∧ wallet'.dids = wallet.dids

theorem Kept.refl (wallets : WalletHandle → Option DidWallet) : Kept wallets wallets :=
  fun _ wallet h => ⟨wallet, h, rfl⟩

theorem kept_update {wallets : WalletHandle → Option DidWallet} {wallet wallet' : DidWallet}
    (hwallet : wallets walletHandle = some wallet) (hdids : wallet'.dids = wallet.dids) :
    Kept wallets (Function.update wallets walletHandle (some wallet')) := by
  intro handle other hother
  by_cases he : handle = walletHandle
  · rw [he] at hother ⊢
    rw [hwallet] at hother
    cases hother
    exact ⟨wallet', update_self _ _ _, hdids⟩
  · exact ⟨other, by rw [update_of_ne he, hother], rfl⟩

variable {cmd : DidCommand}

theorem Deferrable.kept {before after : WalletHandle → Option DidWallet}
    (h : Deferrable crates before cmd) (hkept : Kept before after) :
    Deferrable crates after cmd := by
  cases cmd with
  | keyForDid poolHandle walletHandle did cb =>
    obtain ⟨hvalid, wallet, hwallet, hnone⟩ := h
    obtain ⟨wallet', hwallet', hdids⟩ := hkept walletHandle wallet hwallet
    exact ⟨hvalid, wallet', hwallet', by rw [hdids, hnone]⟩
  | getEndpointForDid walletHandle poolHandle did cb =>
    obtain ⟨hvalid, wallet, hwallet⟩ := h
    obtain ⟨wallet', hwallet', _⟩ := hkept walletHandle wallet hwallet
    exact ⟨hvalid, wallet', hwallet'⟩

/-- The executor after a deferred command has been called back. -/
def resumed (s : DidExecutor) (wallets : WalletHandle → Option DidWallet) (id : ℤ) : DidExecutor :=
  { s with wallets := wallets, deferredCommands := s.deferredCommands.erase id }

/-- An acknowledgement that called back the deferred command. -/
def CalledBack (s : DidExecutor) (id : ℤ) (cb : ℕ) (answer : Except IndyError Answer)
    (executed : Executed) : Prop :=
  ∃ wallets, Kept s.wallets wallets ∧ executed = (resumed s wallets id).call cb answer

theorem calledBack_error {cmd : DidCommand} (err : IndyError)
    (hcmd : s.deferredCommands.lookup id = some cmd) :
    CalledBack s id cmd.cb (.error err) (acknowledged crates storage nextId id (.error err, s)) :=
  ⟨s.wallets, Kept.refl s.wallets, acknowledged_error hcmd⟩

theorem calledBack_add {α : Type} (hcmd : s.deferredCommands.lookup id = some cmd)
    (op : DidOperation) (type_ name : String) (select : DidWallet → Option α)
    (insert : DidWallet → DidWallet) (hdids : ∀ wallet, (insert wallet).dids = wallet.dids)
    (hfound : ∀ wallet, s.wallets walletHandle = some wallet → storage.failure op = none →
      select wallet = none → ¬ Missed storage
        (resumed s (Function.update s.wallets walletHandle (some (insert wallet))) id) cmd) :
    ∃ answer, CalledBack s id cmd.cb answer (acknowledged crates storage nextId id
      (addIndyObject storage s walletHandle op type_ name select insert)) := by
  obtain ⟨err, hadd, _⟩ | ⟨wallet, hwallet, hop, hnone, hadd⟩ :=
    @addIndyObject_cases storage s α walletHandle op type_ name select insert
  · rw [hadd]
    exact ⟨.error err, calledBack_error err hcmd⟩
  · rw [hadd]
    have hlookup : (s.setWallet walletHandle (insert wallet)).deferredCommands.lookup id =
        some cmd := hcmd
    rw [acknowledged_ok hlookup]
    obtain ⟨answer, hcall⟩ | ⟨hmissed, _⟩ := @execute_cases crates storage nextId
      (resumed s (Function.update s.wallets walletHandle (some (insert wallet))) id) true cmd
    · exact ⟨answer, _, kept_update hwallet (hdids wallet), hcall⟩
    · exact absurd hmissed (hfound wallet hwallet hop hnone)

variable {answer : Except IndyError Answer} {reply did : String} {t : DidSystem} {input : DidInput}

theorem call_injective {s t : DidExecutor} {cb : ℕ} {answer' : Except IndyError Answer}
    (h : s.call cb answer = t.call cb answer') : answer = answer' := by
  have heffects := congrArg Prod.fst h
  simp only [DidExecutor.call, List.cons.injEq, Effect.callback.injEq, true_and, and_true]
    at heffects
  exact heffects

theorem theirDidOfReply_carried {theirDid : Crypto.TheirDid}
    (h : CarriesKey crates reply did theirDid)
    (hread : parseNymReply crates reply = meantNymReply crates reply) :
    theirDidOfReply crates reply = .ok theirDid ∧ theirDid.did = did := by
  obtain ⟨info, hmeant, hdid, hcreate⟩ := h
  refine ⟨?_, (Crypto.createTheirDid_did hcreate).trans hdid⟩
  rw [theirDidOfReply, hread, hmeant]
  exact hcreate

theorem keyForDid_stored {borrowed : Bool} {poolHandle : ℤ} {did : String} {cb : ℕ}
    {wallet : DidWallet} {theirDid : Crypto.TheirDid}
    (hvalid : Crypto.validateDid crates.base58 did = .ok ())
    (hwallet : s.wallets walletHandle = some wallet) (hmy : storage.failure .getMyDid = none)
    (htheir : storage.failure .getTheirDid = none) (hnone : wallet.dids did = none)
    (hsome : wallet.theirDids did = some theirDid) :
    keyForDid crates storage nextId s borrowed poolHandle walletHandle did cb =
      s.call cb (.ok (.key theirDid.verkey)) := by
  unfold keyForDid
  rw [hvalid]
  dsimp only
  rw [getIndyObject_none hwallet hmy hnone, getIndyObject_some hwallet htheir hsome]
  exact if_pos rfl

theorem getEndpointForDid_stored {borrowed : Bool} {poolHandle : ℤ} {did : String} {cb : ℕ}
    {wallet : DidWallet} {endpoint : Endpoint}
    (hvalid : Crypto.validateDid crates.base58 did = .ok ())
    (hwallet : s.wallets walletHandle = some wallet) (hget : storage.failure .getEndpoint = none)
    (hsome : wallet.endpoints did = some endpoint) :
    getEndpointForDid crates storage nextId s borrowed walletHandle poolHandle did cb =
      s.call cb (.ok (.endpoint endpoint.ha endpoint.verkey)) := by
  unfold getEndpointForDid
  rw [hvalid]
  dsimp only
  rw [getIndyObject_some hwallet hget hsome]

theorem getNymAck_calledBack {poolHandle : ℤ} {did : String} {cb : ℕ}
    {result : Except IndyError String}
    (hcmd : s.deferredCommands.lookup id = some (.keyForDid poolHandle walletHandle did cb))
    (hproper : ∀ reply, result = .ok reply →
      NymReplyProper crates storage s.wallets walletHandle did reply) :
    ∃ answer, CalledBack s id cb answer
      (getNymAck crates storage nextId s walletHandle result id) := by
  cases result with
  | error err => exact ⟨.error err, @calledBack_error crates storage nextId id s _ err hcmd⟩
  | ok reply =>
    obtain ⟨hpanic, _, hother⟩ := hproper reply rfl
    cases hreply : theirDidOfReply crates reply with
    | panic => exact absurd hreply hpanic
    | err err =>
      simp only [getNymAck, hreply]
      exact ⟨.error err, calledBack_error err hcmd⟩
    | ok theirDid =>
      simp only [getNymAck, hreply]
      refine calledBack_add hcmd .addTheirDid "Indy::TheirDid" theirDid.did _ _ (fun _ => rfl) ?_
      rintro wallet hwallet hop hnone ⟨wallet', hwallet', hmy, _, htheir, hmissing⟩
      have hstored : wallet.insertTheirDid theirDid = wallet' := by
        have hat : Function.update s.wallets walletHandle (some (wallet.insertTheirDid theirDid))
            walletHandle = some wallet' := hwallet'
        rw [update_self] at hat
        exact Option.some.inj hat
      rw [← hstored, DidWallet.insertTheirDid] at hmissing
      dsimp only at hmissing
      by_cases hdid : theirDid.did = did
      · rw [hdid, update_self] at hmissing
        cases hmissing
      · rw [update_of_ne (Ne.symm hdid)] at hmissing
        exact hother theirDid wallet hreply hdid hwallet hop hnone hmy htheir hmissing

/-- The answer is the key that a proper reply carried. -/
theorem getNymAck_receives {poolHandle : ℤ} {cb : ℕ}
    (hcmd : s.deferredCommands.lookup id = some (.keyForDid poolHandle walletHandle did cb))
    (hdef : Deferrable crates s.wallets (.keyForDid poolHandle walletHandle did cb))
    (hproper : NymReplyProper crates storage s.wallets walletHandle did reply)
    (hcalled : CalledBack s id cb answer
      (getNymAck crates storage nextId s walletHandle (.ok reply) id)) :
    Receives crates reply answer (.keyForDid poolHandle walletHandle did cb) := by
  intro theirDid hcarried
  obtain ⟨hvalid, wallet, hwallet, hmine⟩ := hdef
  obtain ⟨hread, hnone, hadd, hmy, htheir⟩ := hproper.2.1 theirDid wallet hcarried hwallet
  obtain ⟨hreply, hdid⟩ := theirDidOfReply_carried hcarried hread
  obtain ⟨wallets, _, hcall⟩ := hcalled
  obtain ⟨err, _, hfull⟩ | ⟨wallet', hwallet', _, _, hstore⟩ :=
    @addIndyObject_cases storage s _ walletHandle .addTheirDid "Indy::TheirDid" theirDid.did
      (fun wallet => wallet.theirDids theirDid.did) (fun wallet => wallet.insertTheirDid theirDid)
  · rw [hdid] at hfull
    exact absurd hnone (hfull wallet hwallet hadd)
  · rw [hwallet] at hwallet'
    cases hwallet'
    have hlookup : (s.setWallet walletHandle
        (wallet.insertTheirDid theirDid)).deferredCommands.lookup id =
          some (.keyForDid poolHandle walletHandle did cb) := hcmd
    have hsome : (wallet.insertTheirDid theirDid).theirDids did = some theirDid := by
      rw [← hdid]
      exact update_self _ _ _
    have hopen : (resumed s (Function.update s.wallets walletHandle
        (some (wallet.insertTheirDid theirDid))) id).wallets walletHandle =
          some (wallet.insertTheirDid theirDid) := update_self _ _ _
    have hrun := @keyForDid_stored crates storage nextId _ walletHandle true poolHandle did cb _ _
      hvalid hopen hmy htheir hmine hsome
    simp only [getNymAck, hreply, addTheirDid, hstore, acknowledged_ok hlookup, execute] at hcall
    rw [resumed] at hrun
    rw [DidExecutor.setWallet] at hcall
    rw [hrun] at hcall
    exact (call_injective hcall).symm

theorem getAttribAck_calledBack {poolHandle : ℤ} {did : String} {cb : ℕ}
    {result : Except IndyError String}
    (hcmd : s.deferredCommands.lookup id =
      some (.getEndpointForDid walletHandle poolHandle did cb))
    (hproper : ∀ reply, result = .ok reply →
      AttribReplyProper crates storage s.wallets walletHandle did reply) :
    ∃ answer, CalledBack s id cb answer
      (getAttribAck crates storage nextId s walletHandle result id) := by
  cases result with
  | error err => exact ⟨.error err, @calledBack_error crates storage nextId id s _ err hcmd⟩
  | ok reply =>
    obtain ⟨hpanic, _, hother⟩ := hproper reply rfl
    cases hreply : endpointOfReply crates reply with
    | panic => exact absurd hreply hpanic
    | err err =>
      simp only [getAttribAck, hreply]
      exact ⟨.error err, calledBack_error err hcmd⟩
    | ok pair =>
      obtain ⟨did', endpoint⟩ := pair
      simp only [getAttribAck, hreply]
      refine calledBack_add hcmd .addEndpoint "Indy::Endpoint" did' _ _ (fun _ => rfl) ?_
      rintro wallet hwallet hop hnone ⟨wallet', hwallet', hget, hmissing⟩
      have hstored : wallet.insertEndpoint did' endpoint = wallet' := by
        have hat : Function.update s.wallets walletHandle
            (some (wallet.insertEndpoint did' endpoint)) walletHandle = some wallet' := hwallet'
        rw [update_self] at hat
        exact Option.some.inj hat
      rw [← hstored, DidWallet.insertEndpoint] at hmissing
      dsimp only at hmissing
      by_cases hdid : did' = did
      · rw [hdid, update_self] at hmissing
        cases hmissing
      · rw [update_of_ne (Ne.symm hdid)] at hmissing
        exact hother did' endpoint wallet hreply hdid hwallet hop hnone hget hmissing

theorem getAttribAck_receives {poolHandle : ℤ} {cb : ℕ} (hcmd : s.deferredCommands.lookup id =
      some (.getEndpointForDid walletHandle poolHandle did cb))
    (hdef : Deferrable crates s.wallets (.getEndpointForDid walletHandle poolHandle did cb))
    (hproper : AttribReplyProper crates storage s.wallets walletHandle did reply)
    (hcalled : CalledBack s id cb answer
      (getAttribAck crates storage nextId s walletHandle (.ok reply) id)) :
    Receives crates reply answer (.getEndpointForDid walletHandle poolHandle did cb) := by
  intro endpoint hcarried
  obtain ⟨hvalid, wallet, hwallet⟩ := hdef
  obtain ⟨hnone, hadd, hget⟩ := hproper.2.1 endpoint wallet hcarried hwallet
  have hreply : endpointOfReply crates reply = .ok (did, endpoint) := hcarried
  obtain ⟨wallets, _, hcall⟩ := hcalled
  obtain ⟨err, _, hfull⟩ | ⟨wallet', hwallet', _, _, hstore⟩ :=
    @addIndyObject_cases storage s _ walletHandle .addEndpoint "Indy::Endpoint" did
      (fun wallet => wallet.endpoints did) (fun wallet => wallet.insertEndpoint did endpoint)
  · exact absurd hnone (hfull wallet hwallet hadd)
  · rw [hwallet] at hwallet'
    cases hwallet'
    have hlookup : (s.setWallet walletHandle
        (wallet.insertEndpoint did endpoint)).deferredCommands.lookup id =
          some (.getEndpointForDid walletHandle poolHandle did cb) := hcmd
    have hsome : (wallet.insertEndpoint did endpoint).endpoints did = some endpoint :=
      update_self _ _ _
    have hopen : (resumed s (Function.update s.wallets walletHandle
        (some (wallet.insertEndpoint did endpoint))) id).wallets walletHandle =
          some (wallet.insertEndpoint did endpoint) := update_self _ _ _
    have hrun := @getEndpointForDid_stored crates storage nextId _ walletHandle true poolHandle did
      cb _ _ hvalid hopen hget hsome
    simp only [getAttribAck, hreply, addEndpoint, hstore, acknowledged_ok hlookup, execute] at hcall
    rw [resumed] at hrun
    rw [DidExecutor.setWallet] at hcall
    rw [hrun] at hcall
    exact (call_injective hcall).symm

theorem deliver_answers {cmd : DidCommand} {result : Except IndyError String}
    (hcmd : s.deferredCommands.lookup id = some cmd) (hdef : Deferrable crates s.wallets cmd)
    (hproper : ∀ reply, result = .ok reply → ReplyProper crates storage s.wallets reply cmd) :
    ∃ answer, CalledBack s id cmd.cb answer
        (deliver crates storage nextId s (ackOf id cmd) result) ∧
      ∀ reply, result = .ok reply → Receives crates reply answer cmd := by
  cases cmd with
  | keyForDid poolHandle walletHandle did cb =>
    obtain ⟨answer, hcalled⟩ := @getNymAck_calledBack crates storage nextId id s walletHandle
      poolHandle did cb result hcmd hproper
    refine ⟨answer, hcalled, ?_⟩
    rintro reply rfl
    exact getNymAck_receives hcmd hdef (hproper reply rfl) hcalled
  | getEndpointForDid walletHandle poolHandle did cb =>
    obtain ⟨answer, hcalled⟩ := @getAttribAck_calledBack crates storage nextId id s walletHandle
      poolHandle did cb result hcmd hproper
    refine ⟨answer, hcalled, ?_⟩
    rintro reply rfl
    exact getAttribAck_receives hcmd hdef (hproper reply rfl) hcalled

/-! ### Steps -/

theorem owed_insert {cmds : AssocMap ℤ DidCommand} (h : nextId ∉ cmds) :
    ((values (cmds.insert nextId cmd)).map DidCommand.cb : Multiset ℕ) =
      (cmds.values.map DidCommand.cb : Multiset ℕ) + {cmd.cb} := by
  rw [values_insert_of_notMem h, map_cons, ← Multiset.cons_coe,
    ← Multiset.singleton_add, add_comm]

theorem owed_erase {cmds : AssocMap ℤ DidCommand} (h : cmds.lookup id = some cmd) :
    (cmds.values.map DidCommand.cb : Multiset ℕ) =
      {cmd.cb} + ((values (cmds.erase id)).map DidCommand.cb : Multiset ℕ) := by
  rw [Multiset.coe_eq_coe.mpr ((values_perm_erase h).map DidCommand.cb), map_cons,
    ← Multiset.cons_coe, Multiset.singleton_add]

theorem missed_deferrable (hvalid : Crypto.validateDid crates.base58 cmd.did = .ok ())
    (h : Missed storage s cmd) :
    Deferrable crates s.wallets cmd := by
  cases cmd with
  | keyForDid poolHandle walletHandle did cb =>
    obtain ⟨wallet, hwallet, _, hnone, _⟩ := h
    exact ⟨hvalid, wallet, hwallet, hnone⟩
  | getEndpointForDid walletHandle poolHandle did cb =>
    obtain ⟨wallet, hwallet, _⟩ := h
    exact ⟨hvalid, wallet, hwallet⟩

theorem calls_request (cmd : DidCommand) : calls [requestOf nextId cmd] = [] := by
  cases cmd <;> rfl

theorem acks_request (cmd : DidCommand) : acks [requestOf nextId cmd] = [ackOf nextId cmd] := by
  cases cmd <;> rfl

theorem ackOf_deferredCmdId (cmd : DidCommand) : (ackOf nextId cmd).deferredCmdId = nextId := by
  cases cmd <;> rfl

theorem coherent_defer (h : t.Coherent crates) (hnew : nextId ∉ t.executor.deferredCommands)
    (hdef : Deferrable crates t.executor.wallets cmd) :
    DidSystem.Coherent crates
      ⟨{ t.executor with deferredCommands := t.executor.deferredCommands.insert nextId cmd },
        t.inFlight ++ [ackOf nextId cmd]⟩ := by
  have hfresh : ∀ ack ∈ t.inFlight, ack.deferredCmdId ≠ nextId := by
    intro ack hack he
    obtain ⟨cmd', hcmd', _⟩ := h.waiting ack hack
    rw [he] at hcmd'
    exact hnew (lookup_isSome.mp (by rw [hcmd']; rfl))
  constructor
  · exact h.alive
  · rw [map_append, map_singleton, ackOf_deferredCmdId, nodup_append]
    refine ⟨h.nodup, nodup_singleton _, ?_⟩
    intro a ha b hb he
    obtain ⟨ack, hack, rfl⟩ := mem_map.mp ha
    rw [mem_singleton] at hb
    exact hfresh ack hack (he.trans hb)
  · intro ack hack
    rw [mem_append, mem_singleton] at hack
    obtain hack | rfl := hack
    · obtain ⟨cmd', hcmd', hof, hdef'⟩ := h.waiting ack hack
      refine ⟨cmd', ?_, hof, hdef'⟩
      rw [lookup_insert_ne (hfresh ack hack), hcmd']
    · refine ⟨cmd, ?_, ?_, hdef⟩
      · rw [ackOf_deferredCmdId, lookup_insert]
      · rw [ackOf_deferredCmdId]
  · intro id' hid'
    rw [mem_insert] at hid'
    obtain rfl | hid' := hid'
    · exact ⟨_, mem_append_right _ mem_cons_self, ackOf_deferredCmdId cmd⟩
    · obtain ⟨ack, hack, he⟩ := h.asked id' hid'
      exact ⟨ack, mem_append_left _ hack, he⟩

/-- A command that has been called back leaves together with its request. -/
theorem coherent_resume {i : ℕ} {ack : Ack} (h : t.Coherent crates)
    (hack : t.inFlight[i]? = some ack) {wallets : WalletHandle → Option DidWallet}
    (hkept : Kept t.executor.wallets wallets) :
    DidSystem.Coherent crates
      ⟨resumed t.executor wallets ack.deferredCmdId, t.inFlight.eraseIdx i⟩ := by
  obtain ⟨before, rest, hl, herase⟩ := split_at hack
  have hnodup := h.nodup
  rw [hl, map_append, map_cons, nodup_middle, nodup_cons] at hnodup
  obtain ⟨hnot, hnodup⟩ := hnodup
  have hmem : ∀ ack', ack' ∈ before ++ rest → ack' ∈ t.inFlight := by
    intro ack' h'
    rw [hl, mem_append, mem_cons]
    obtain h' | h' := mem_append.mp h'
    · exact .inl h'
    · exact .inr (.inr h')
  constructor
  · exact h.alive
  · dsimp only
    rw [herase, map_append]
    exact hnodup
  · dsimp only
    rw [herase]
    intro ack' h'
    obtain ⟨cmd', hcmd', hof, hdef'⟩ := h.waiting ack' (hmem ack' h')
    refine ⟨cmd', ?_, hof, hdef'.kept hkept⟩
    have hne : ack'.deferredCmdId ≠ ack.deferredCmdId := by
      intro he
      apply hnot
      rw [← he, ← map_append]
      exact mem_map_of_mem h'
    rw [resumed, lookup_erase_ne hne, hcmd']
  · intro id' hid'
    rw [resumed, mem_erase] at hid'
    obtain ⟨hne, hid'⟩ := hid'
    obtain ⟨ack', h', he⟩ := h.asked id' hid'
    refine ⟨ack', ?_, he⟩
    dsimp only
    rw [herase, mem_append]
    rw [hl, mem_append, mem_cons] at h'
    obtain h' | rfl | h' := h'
    · exact .inl h'
    · exact absurd he.symm hne
    · exact .inr h'

theorem command_resolved (h : t.Coherent crates) (hevent : input.event = .command cmd)
    (hnew : input.nextId ∉ t.executor.deferredCommands) :
    Resolved crates t input ∧ DidSystem.Coherent crates ((didMachine crates).step input t).2 := by
  have hstep : (didMachine crates).step input t = DidSystem.after t.inFlight
      (execute crates input.storage input.nextId t.executor false cmd) := by
    simp only [didMachine, h.alive, hevent, Bool.false_eq_true, if_false]
  have hnoReply : ∀ i result, input.event ≠ .reply i result := by
    intro i result he
    rw [hevent] at he
    cases he
  obtain ⟨answer, hcall⟩ | ⟨hmissed, hvalid, hdefer⟩ :=
    @execute_cases crates input.storage input.nextId t.executor false cmd
  · have hnext : (didMachine crates).step input t = ([.callback cmd.cb answer], t) := by
      rw [hstep, hcall]
      simp [DidSystem.after, DidExecutor.call, acks]
    refine ⟨⟨?_, ?_, fun i result _ _ he => absurd he (hnoReply i result)⟩, ?_⟩
    · rw [hnext]
      exact h.alive
    · rw [Machine.Balanced, hnext]
      simp only [due, hevent]
      exact add_comm _ _
    · rw [hnext]
      exact h
  · have hnext : (didMachine crates).step input t = ([requestOf input.nextId cmd],
        ⟨{ t.executor with
            deferredCommands := t.executor.deferredCommands.insert input.nextId cmd },
          t.inFlight ++ [ackOf input.nextId cmd]⟩) := by
      rw [hstep, hdefer]
      simp only [DidSystem.after, DidExecutor.deferCommand, Bool.false_eq_true, if_false,
        acks_request]
    refine ⟨⟨?_, ?_, fun i result _ _ he => absurd he (hnoReply i result)⟩, ?_⟩
    · rw [hnext]
      exact h.alive
    · rw [Machine.Balanced, hnext]
      simp only [due, hevent, settled, calls_request, owed]
      rw [owed_insert hnew]
      exact (zero_add _).symm
    · rw [hnext]
      exact coherent_defer h hnew (missed_deferrable hvalid hmissed)

theorem step_reply {t : DidSystem} {input : DidInput} {i : ℕ} {result : Except IndyError String}
    {ack : Ack} (halive : t.executor.panicked = false) (hevent : input.event = .reply i result)
    (hack : t.inFlight[i]? = some ack) :
    (didMachine crates).step input t = DidSystem.after (t.inFlight.eraseIdx i)
      (deliver crates input.storage input.nextId t.executor ack result) := by
  simp only [didMachine, halive, hevent, hack, Bool.false_eq_true, if_false]

theorem reply_resolved {i : ℕ} {result : Except IndyError String} (h : t.Coherent crates)
    (hevent : input.event = .reply i result) (hproper : Proper crates t input) :
    Resolved crates t input ∧ DidSystem.Coherent crates ((didMachine crates).step input t).2 := by
  simp only [Proper, hevent] at hproper
  cases hack : t.inFlight[i]? with
  | none =>
    have hnext : (didMachine crates).step input t = ([], t) := by
      simp only [didMachine, h.alive, hevent, hack, Bool.false_eq_true, if_false]
    refine ⟨⟨?_, ?_, ?_⟩, ?_⟩
    · rw [hnext]
      exact h.alive
    · rw [Machine.Balanced, hnext]
      simp only [due, hevent]
      exact add_comm _ _
    · intro i' result' ack' cmd' he hack'
      rw [hevent] at he
      cases he
      rw [hack] at hack'
      cases hack'
    · rw [hnext]
      exact h
  | some ack =>
    obtain ⟨cmd, hcmd, hof, hdef⟩ := h.waiting ack (mem_of_getElem? hack)
    have hproper' := fun reply => hproper ack cmd reply hack hcmd
    obtain ⟨answer, ⟨wallets, hkept, hcall⟩, hreceives⟩ :=
      @deliver_answers crates input.storage input.nextId ack.deferredCmdId t.executor cmd result
        hcmd hdef hproper'
    rw [← hof] at hcall
    have hnext : (didMachine crates).step input t = ([.callback cmd.cb answer],
        ⟨resumed t.executor wallets ack.deferredCmdId, t.inFlight.eraseIdx i⟩) := by
      rw [step_reply h.alive hevent hack, hcall]
      simp [DidSystem.after, DidExecutor.call, acks]
    refine ⟨⟨?_, ?_, ?_⟩, ?_⟩
    · rw [hnext]
      exact h.alive
    · rw [Machine.Balanced, hnext]
      simp only [due, hevent, add_zero]
      exact owed_erase hcmd
    · intro i' result' ack' cmd' he hack' hcmd'
      rw [hevent] at he
      cases he
      rw [hack] at hack'
      cases hack'
      rw [hcmd] at hcmd'
      cases hcmd'
      rw [hnext]
      exact ⟨answer, rfl, hreceives⟩
    · rw [hnext]
      exact coherent_resume h hack hkept

/-! ### Runs -/

/-- Nothing is deferred and nothing asked, whatever the wallets hold. -/
structure DidSystem.Idle (t : DidSystem) : Prop where
  alive : t.executor.panicked = false
  nothingDeferred : t.executor.deferredCommands = ∅
  nothingAsked : t.inFlight = []

theorem DidSystem.Idle.coherent (h : t.Idle) : t.Coherent crates := by
  constructor
  · exact h.alive
  · rw [h.nothingAsked]
    exact nodup_nil
  · intro ack hack
    rw [h.nothingAsked] at hack
    cases hack
  · intro id hid
    rw [h.nothingDeferred] at hid
    exact absurd hid (notMem_empty id)

theorem DidSystem.Coherent.owed_eq_zero (h : t.Coherent crates) (hasked : t.inFlight = []) :
    owed t = 0 := by
  have hempty : t.executor.deferredCommands.values = [] := by
    rw [eq_nil_iff_forall_not_mem]
    intro cmd hcmd
    obtain ⟨id, hid⟩ := mem_values.mp hcmd
    obtain ⟨ack, hack, _⟩ := h.asked id (lookup_isSome.mp (by rw [hid]; rfl))
    rw [hasked] at hack
    cases hack
  rw [owed, hempty]
  rfl

theorem step_resolved (h : t.Coherent crates) (hproper : Proper crates t input) :
    Resolved crates t input ∧ DidSystem.Coherent crates ((didMachine crates).step input t).2 := by
  cases hevent : input.event with
  | command cmd =>
    refine command_resolved h hevent ?_
    simpa only [Proper, hevent] using hproper
  | reply i result => exact reply_resolved h hevent hproper

theorem run_coherent {inputs : List DidInput} (h : t.Coherent crates)
    (hproper : (didMachine crates).Along (Proper crates) t inputs) :
    DidSystem.Coherent crates ((didMachine crates).run inputs t) := by
  induction inputs generalizing t with
  | nil => exact h
  | cons input inputs ih => exact ih (step_resolved h hproper.1).2 hproper.2

/-- Proper replies in any order resolve every command once: none is lost, none waits without a
request, and a key or endpoint that the ledger sent arrives. -/
theorem deferred_resolved {t : DidSystem} {inputs : List DidInput} (h : t.Idle)
    (hproper : (didMachine crates).Along (Proper crates) t inputs) :
    (didMachine crates).Along (Resolved crates) t inputs ∧
      dueBy due inputs = settledBy settled ((didMachine crates).outputs inputs t) +
        owed ((didMachine crates).run inputs t) ∧
      (((didMachine crates).run inputs t).inFlight = [] →
        settledBy settled ((didMachine crates).outputs inputs t) =
          dueBy due inputs) := by
  have hresolved : (didMachine crates).Along (Resolved crates) t inputs := by
    have hstart : t.Coherent crates := h.coherent
    refine along_of_along ?_ hstart hproper
    intro t input hcoherent hproper
    exact step_resolved hcoherent hproper
  have hbalanced : (didMachine crates).Along ((didMachine crates).Balanced owed due settled) t
      inputs := by
    apply along_mono ?_ hresolved
    intro t input hstep
    exact hstep.balanced
  have hstart : owed t = 0 := by
    rw [owed, h.nothingDeferred]
    rfl
  refine ⟨hresolved, ?_, ?_⟩
  · have hrun := run_balanced hbalanced
    rw [hstart, zero_add] at hrun
    exact hrun
  · intro hasked
    exact settled_eq_due hbalanced hstart
      ((run_coherent h.coherent hproper).owed_eq_zero hasked)

/-! ### Two runs -/

theorem keyForDid_missed {borrowed : Bool} {poolHandle : ℤ} {did : String} {cb : ℕ}
    {wallet : DidWallet} (hvalid : Crypto.validateDid crates.base58 did = .ok ())
    (hwallet : s.wallets walletHandle = some wallet) (hmy : storage.failure .getMyDid = none)
    (htheir : storage.failure .getTheirDid = none) (hmine : wallet.dids did = none)
    (hnone : wallet.theirDids did = none) :
    keyForDid crates storage nextId s borrowed poolHandle walletHandle did cb =
      fetchTheirDidFromLedger nextId s borrowed walletHandle poolHandle did
        (.keyForDid poolHandle walletHandle did cb) := by
  unfold keyForDid
  rw [hvalid]
  dsimp only
  rw [getIndyObject_none hwallet hmy hmine, getIndyObject_none hwallet htheir hnone]
  exact if_pos rfl

theorem validateDid_alice : Crypto.validateDid exampleCrates.base58 aliceDid = .ok () := by
  rfl

def idleSystem : DidSystem where
  executor :=
    { wallets := fun handle => if handle = 1 then some emptyWallet else none
      deferredCommands := ∅
      panicked := false }
  inFlight := []

def askForAlice : DidInput := ⟨.command (.keyForDid 2 1 aliceDid 5), 7, .none⟩

def answerWith (did : String) : DidInput := ⟨.reply 0 (.ok (nymReplyFor did).text), 8, .none⟩

def askedSystem : DidSystem := ⟨waitingExecutor, [⟨.getNymAck, 1, 7⟩]⟩

theorem step_askForAlice :
    (didMachine exampleCrates).step askForAlice idleSystem =
      ([.submitRequest 2 (.getNym aliceDid) ⟨.getNymAck, 1, 7⟩], askedSystem) := by
  have hrun := @keyForDid_missed exampleCrates .none 7 idleSystem.executor 1 false 2 aliceDid 5
    emptyWallet validateDid_alice rfl rfl rfl rfl rfl
  have hstep : (didMachine exampleCrates).step askForAlice idleSystem =
      DidSystem.after [] (keyForDid exampleCrates .none 7 idleSystem.executor false 2 1 aliceDid
        5) := rfl
  rw [hstep, hrun]
  rfl

theorem aliceReply_proper : NymReplyProper exampleCrates .none waitingExecutor.wallets 1 aliceDid
    (nymReplyFor aliceDid).text := by
  refine ⟨?_, ?_, ?_⟩
  · rw [theirDidOfReply_alice]
    exact Outcome.ok_ne_panic _
  · intro theirDid wallet _ hwallet
    cases hwallet
    refine ⟨?_, rfl, rfl, rfl, rfl⟩
    rw [parseNymReply, meantNymReply, readNymReply, readNymReply, exampleCrates_fromStr (by simp)]
    rfl
  · intro theirDid wallet hreply hne
    rw [theirDidOfReply_alice] at hreply
    cases hreply
    exact absurd rfl hne

/-- A question about a DID and the ledger's reply about it. -/
theorem askAlice_resolved :
    (didMachine exampleCrates).Along (Resolved exampleCrates) idleSystem
        [askForAlice, answerWith aliceDid] ∧
      settledBy settled ((didMachine exampleCrates).outputs
        [askForAlice, answerWith aliceDid] idleSystem) +
          owed ((didMachine exampleCrates).run [askForAlice, answerWith aliceDid] idleSystem) =
        {5} := by
  have hproper : (didMachine exampleCrates).Along (Proper exampleCrates) idleSystem
      [askForAlice, answerWith aliceDid] := by
    refine ⟨notMem_empty 7, ?_, trivial⟩
    rw [step_askForAlice]
    intro ack cmd reply hack hcmd hreply
    cases hack
    cases hcmd
    cases hreply
    exact aliceReply_proper
  have hrun := deferred_resolved ⟨rfl, rfl, rfl⟩ hproper
  exact ⟨hrun.1, hrun.2.1.symm⟩

def bobWallet : DidWallet := emptyWallet.insertTheirDid ⟨bobDid, bobVerkey⟩

theorem bobWallet_alice : bobWallet.theirDids aliceDid = none := by
  have hne : aliceDid ≠ bobDid := by decide
  dsimp only [bobWallet, DidWallet.insertTheirDid]
  rw [update_of_ne hne]
  rfl

/-- The executor after the record about the other DID has been stored. -/
def bobStored : DidExecutor :=
  resumed waitingExecutor (Function.update waitingExecutor.wallets 1 (some bobWallet)) 7

theorem getNymAck_bob : getNymAck exampleCrates .none 8 waitingExecutor 1
    (.ok (nymReplyFor bobDid).text) 7 = bobStored.panic := by
  have hadd : addTheirDid .none waitingExecutor 1 ⟨bobDid, bobVerkey⟩ =
      (.ok (), waitingExecutor.setWallet 1 bobWallet) := rfl
  have hcmd : (waitingExecutor.setWallet 1 bobWallet).deferredCommands.lookup 7 =
      some (.keyForDid 2 1 aliceDid 5) := rfl
  have hopen : bobStored.wallets 1 = some bobWallet := by
    dsimp only [bobStored, resumed]
    exact update_self _ _ _
  have hrun := @keyForDid_missed exampleCrates .none 8 bobStored 1 true 2 aliceDid 5 bobWallet
    validateDid_alice hopen rfl rfl rfl bobWallet_alice
  rw [getNymAck, theirDidOfReply_bob]
  dsimp only
  rw [hadd, acknowledged_ok hcmd]
  exact hrun

/-- The reply about the other DID makes the command defer itself again, in a borrowed map. -/
theorem askAlice_answerBob_panics :
    ¬ (didMachine exampleCrates).Along (Resolved exampleCrates) idleSystem
      [askForAlice, answerWith bobDid] := by
  rintro ⟨_, hreply, _⟩
  rw [step_askForAlice] at hreply
  dsimp only at hreply
  have halive := hreply.alive
  have hrunning : askedSystem.executor.panicked = false := rfl
  have hevent : (answerWith bobDid).event = .reply 0 (.ok (nymReplyFor bobDid).text) := rfl
  have hack : askedSystem.inFlight[0]? = some ⟨.getNymAck, 1, 7⟩ := rfl
  have hdeliver : deliver exampleCrates (answerWith bobDid).storage (answerWith bobDid).nextId
      askedSystem.executor ⟨.getNymAck, 1, 7⟩ (.ok (nymReplyFor bobDid).text) =
        bobStored.panic := by
    rw [deliver]
    exact getNymAck_bob
  have hstep := @step_reply exampleCrates askedSystem (answerWith bobDid) 0 _ _ hrunning hevent hack
  rw [hdeliver] at hstep
  rw [hstep] at halive
  cases halive

end IndySdk.DidResolution
