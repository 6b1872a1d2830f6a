import IndySdk.DidResolution

/-!
# What the DID executor can do in one step

Executing a command calls back or, where the record is missing in the wallet, defers the command. An
acknowledgement adds at most one record, of the DID that the reply names.
-/

open Outcome Option

namespace IndySdk.Domain

variable {α : Type} {f g : Json → Option α} {P : α → Prop}

theorem mapM_heads (h : ∀ j, f j = g j ∨ ∃ a b, f j = some a ∧ g j = some b ∧ P a)
    (elements : List Json) :
    (elements.mapM f = none ∧ elements.mapM g = none) ∨
      ∃ as bs, elements.mapM f = some as ∧ elements.mapM g = some bs ∧
        (as.head? = bs.head? ∨ ∃ a, as.head? = some a ∧ P a) := by
  induction elements with
  | nil => exact .inr ⟨[], [], rfl, rfl, .inl rfl⟩
  | cons j elements ih =>
    rw [List.mapM_cons, List.mapM_cons]
    obtain he | ⟨a, b, ha, hb, hP⟩ := h j
    · cases hj : g j with
      | none =>
        rw [he, hj]
        exact .inl ⟨rfl, rfl⟩
      | some a =>
        rw [he, hj]
        obtain ⟨hf, hg⟩ | ⟨as, bs, hf, hg, _⟩ := ih
        · rw [hf, hg]
          exact .inl ⟨rfl, rfl⟩
        · rw [hf, hg]
          exact .inr ⟨a :: as, a :: bs, rfl, rfl, .inl rfl⟩
    · rw [ha, hb]
      obtain ⟨hf, hg⟩ | ⟨as, bs, hf, hg, _⟩ := ih
      · rw [hf, hg]
        exact .inl ⟨rfl, rfl⟩
      · rw [hf, hg]
        exact .inr ⟨a :: as, b :: bs, rfl, rfl, .inr ⟨a, rfl, hP⟩⟩

theorem bind_agree {x : Option Json}
    (h : ∀ j, f j = g j ∨ ∃ a b, f j = some a ∧ g j = some b ∧ P a) :
    x.bind f = x.bind g ∨ ∃ a b, x.bind f = some a ∧ x.bind g = some b ∧ P a := by
  cases x with
  | none => exact .inl rfl
  | some j => exact h j

/-- The outcome of reading a reply, where a reply that cannot be read is an error. -/
def readResult (decodeResult : Json → Option α) (err : IndyError) (reply : Option Json) :
    IndyResult α :=
  Outcome.ofOption err (reply.bind (TypedReply.decode decodeResult)) >>= TypedReply.result

theorem readResult_agree (h : ∀ j, f j = g j ∨ ∃ a b, f j = some a ∧ g j = some b ∧ P a)
    (err : IndyError) (reply : Option Json) :
    readResult f err reply = readResult g err reply ∨
      ∃ a, readResult f err reply = .ok a ∧ P a := by
  cases reply with
  | none => exact .inl rfl
  | some j =>
    unfold readResult
    rw [bind_some, bind_some, TypedReply.decode, TypedReply.decode]
    obtain hV0 | ⟨a, b, ha, hb, hP⟩ := @bind_agree α f g P (onlyField "result" j) h
    · rw [hV0]
      cases (onlyField "result" j).bind g with
      | some a => exact .inl rfl
      | none =>
        cases listedResults j with
        | none => exact .inl rfl
        | some elements =>
          obtain ⟨hf, hg⟩ | ⟨as, bs, hf, hg, hheads⟩ := mapM_heads
            (fun element => @bind_agree α f g P (onlyField "result" element) h) elements
          · dsimp only [bind_some]
            rw [hf, hg]
            exact .inl rfl
          · dsimp only [bind_some]
            rw [hf, hg]
            simp only [map_some, ofOption_some, ok_bind, TypedReply.result]
            obtain heq | ⟨a, ha, hP⟩ := hheads
            · rw [heq]
              exact .inl rfl
            · rw [ha]
              exact .inr ⟨a, rfl, hP⟩
    · rw [ha]
      exact .inr ⟨a, rfl, hP⟩

theorem GetNymReplyResult.decode_meant (j : Json) :
    GetNymReplyResult.decode j = GetNymReplyResult.meant j ∨
      ∃ a b, GetNymReplyResult.decode j = some a ∧ GetNymReplyResult.meant j = some b ∧
        a = .getNymReplyResultV0 ⟨none⟩ := by
  unfold meant
  split
  · rename_i hV0
    unfold decode
    rw [hV0]
    cases GetReplyResultV1.decode GetNymResultDataV1.decode j with
    | none => exact .inl rfl
    | some res => exact .inr ⟨_, _, rfl, rfl, rfl⟩
  · exact .inl rfl

end IndySdk.Domain

namespace IndySdk.DidResolution

open Domain

variable {crates : DidCrates} {reply : String}

theorem parse_eq_meant_or_notOnLedger (reply : String) :
    parseNymReply crates reply = meantNymReply crates reply ∨
      parseNymReply crates reply = .err notOnLedger := by
  have hread : ∀ decodeResult, readNymReply crates decodeResult reply =
      readResult decodeResult (errMsg .invalidState "Invalid GetNymReplyResult json")
        (crates.fromStr reply) >>= theirDidInfo crates := by
    intro decodeResult
    unfold readNymReply readResult
    cases Outcome.ofOption (errMsg .invalidState "Invalid GetNymReplyResult json")
      ((crates.fromStr reply).bind (TypedReply.decode decodeResult)) with
    | ok response => rfl
    | err err => rfl
    | panic => rfl
  unfold parseNymReply meantNymReply
  rw [hread, hread]
  obtain heq | ⟨a, ha, rfl⟩ := readResult_agree GetNymReplyResult.decode_meant
    (errMsg .invalidState "Invalid GetNymReplyResult json") (crates.fromStr reply)
  · rw [heq]
    exact .inl rfl
  · rw [ha]
    exact .inr rfl

theorem theirDidOfReply_ok {theirDid : Crypto.TheirDid}
    (h : theirDidOfReply crates reply = .ok theirDid) :
    ∃ info, parseNymReply crates reply = .ok info ∧ meantNymReply crates reply = .ok info ∧
      Crypto.createTheirDid crates.base58 info = .ok theirDid ∧ theirDid.did = info.did := by
  obtain ⟨info, hinfo, hcreate⟩ := bind_eq_ok_iff.mp h
  refine ⟨info, hinfo, ?_, hcreate, Crypto.createTheirDid_did hcreate⟩
  obtain heq | hmissing := @parse_eq_meant_or_notOnLedger crates reply
  · rw [← heq, hinfo]
  · rw [hinfo] at hmissing
    exact absurd hmissing.symm (err_ne_ok _ _)

theorem meant_of_panic (h : theirDidOfReply crates reply = .panic) :
    meantNymReply crates reply = .panic := by
  obtain heq | hmissing := @parse_eq_meant_or_notOnLedger crates reply
  · rw [← heq]
    unfold theirDidOfReply at h
    cases hparse : parseNymReply crates reply with
    | ok info =>
      rw [hparse] at h
      exact absurd h (Crypto.createTheirDid_ne_panic info)
    | err err =>
      rw [hparse] at h
      cases h
    | panic => rfl
  · unfold theirDidOfReply at h
    rw [hmissing] at h
    cases h

theorem endpointOfReply_ok {did : String} {endpoint : Endpoint}
    (h : endpointOfReply crates reply = .ok (did, endpoint)) :
    ∃ raw, readAttribReply crates reply = .ok (did, raw) := by
  obtain ⟨⟨did', raw⟩, hread, h⟩ := bind_eq_ok_iff.mp h
  obtain ⟨attribData, _, h⟩ := bind_eq_ok_iff.mp h
  cases h
  exact ⟨raw, hread⟩

theorem read_of_panic (h : endpointOfReply crates reply = .panic) :
    readAttribReply crates reply = .panic := by
  unfold endpointOfReply at h
  cases hread : readAttribReply crates reply with
  | ok pair =>
    rw [hread, ok_bind] at h
    refine absurd h (bind_ne_panic ?_ (fun _ => ok_ne_panic _))
    cases (crates.fromStr pair.2).bind AttribData.decode with
    | none => exact err_ne_panic _
    | some data => exact ok_ne_panic _
  | err err =>
    rw [hread] at h
    cases h
  | panic => rfl

/-! ### Commands -/

variable {storage : StorageFailures} {nextId : ℤ} {s : DidExecutor}

/-- The wallet answers every question of a command, but has not got its record. -/
def Missed (storage : StorageFailures) (s : DidExecutor) : DidCommand → Prop
  | .keyForDid _ walletHandle did _ => ∃ wallet, s.wallets walletHandle = some wallet ∧
      storage.failure .getMyDid = none ∧ wallet.dids did = none ∧
      storage.failure .getTheirDid = none ∧ wallet.theirDids did = none
  | .getEndpointForDid walletHandle _ did _ => ∃ wallet, s.wallets walletHandle = some wallet ∧
      storage.failure .getEndpoint = none ∧ wallet.endpoints did = none

def ackOf (nextId : ℤ) : DidCommand → Ack
  | .keyForDid _ walletHandle _ _ => ⟨.getNymAck, walletHandle, nextId⟩
  | .getEndpointForDid walletHandle _ _ _ => ⟨.getAttribAck, walletHandle, nextId⟩

def requestOf (nextId : ℤ) : DidCommand → Effect
  | .keyForDid poolHandle walletHandle did cb =>
    .submitRequest poolHandle (.getNym did)
      (ackOf nextId (.keyForDid poolHandle walletHandle did cb))
  | .getEndpointForDid walletHandle poolHandle did cb =>
    .submitRequest poolHandle (.getAttrib did "endpoint")
      (ackOf nextId (.getEndpointForDid walletHandle poolHandle did cb))

variable {wallets : WalletHandle → Option DidWallet} {handle : WalletHandle} {op : DidOperation}

theorem getIndyObject_missing {α : Type} {select : DidWallet → Option α} {err : IndyError}
    (h : getIndyObject storage wallets handle op select = .error err)
    (hkind : err.kind = .walletItemNotFound) :
    ∃ wallet, wallets handle = some wallet ∧ storage.failure op = none ∧ select wallet = none := by
  unfold getIndyObject at h
  cases hwallet : wallets handle with
  | none =>
    rw [hwallet] at h
    cases h
    cases hkind
  | some wallet =>
    refine ⟨wallet, rfl, ?_⟩
    rw [hwallet] at h
    cases hfailed : storage.failure op with
    | some failed =>
      simp only [hfailed, Except.error.injEq] at h
      rw [← h] at hkind
      exact absurd hkind (storage.ne_itemNotFound op failed hfailed)
    | none =>
      cases hfound : select wallet with
      | none => exact ⟨rfl, rfl⟩
      | some object =>
        simp only [hfailed, hfound] at h
        cases h

theorem getIndyObject_none {α : Type} {select : DidWallet → Option α} {wallet : DidWallet}
    (hwallet : wallets handle = some wallet) (hop : storage.failure op = none)
    (hnone : select wallet = none) :
    getIndyObject storage wallets handle op select =
      .error (errMsg .walletItemNotFound "Wallet item not found") := by
  simp only [getIndyObject, hwallet, hop, hnone]

theorem getIndyObject_some {α : Type} {select : DidWallet → Option α} {wallet : DidWallet}
    {object : α} (hwallet : wallets handle = some wallet) (hop : storage.failure op = none)
    (hsome : select wallet = some object) :
    getIndyObject storage wallets handle op select = .ok object := by
  simp only [getIndyObject, hwallet, hop, hsome]

/-- A command calls back, or is put aside because its record is missing. -/
theorem execute_cases (borrowed : Bool) (cmd : DidCommand) :
    (∃ answer, execute crates storage nextId s borrowed cmd = s.call cmd.cb answer) ∨
      (Missed storage s cmd ∧ Crypto.validateDid crates.base58 cmd.did = .ok () ∧
        execute crates storage nextId s borrowed cmd =
          s.deferCommand borrowed nextId cmd (requestOf nextId cmd)) := by
  cases cmd with
  | keyForDid poolHandle walletHandle did cb =>
    simp only [execute, keyForDid]
    split
    · exact .inl ⟨_, rfl⟩
    · rename_i hpanic
      exact absurd hpanic (Crypto.validateDid_ne_panic did)
    · rename_i hvalid
      split
      · exact .inl ⟨_, rfl⟩
      · rename_i err hmy
        split
        · rename_i hmyKind
          split
          · exact .inl ⟨_, rfl⟩
          · rename_i err' htheir
            split
            · rename_i htheirKind
              obtain ⟨wallet, hwallet, hop, hnone⟩ := getIndyObject_missing hmy hmyKind
              obtain ⟨wallet', hwallet', hop', hnone'⟩ := getIndyObject_missing htheir htheirKind
              rw [hwallet] at hwallet'
              cases hwallet'
              exact .inr ⟨⟨wallet, hwallet, hop, hnone, hop', hnone'⟩, hvalid, rfl⟩
            · exact .inl ⟨_, rfl⟩
        · exact .inl ⟨_, rfl⟩
  | getEndpointForDid walletHandle poolHandle did cb =>
    simp only [execute, getEndpointForDid]
    split
    · exact .inl ⟨_, rfl⟩
    · rename_i hpanic
      exact absurd hpanic (Crypto.validateDid_ne_panic did)
    · rename_i hvalid
      split
      · exact .inl ⟨_, rfl⟩
      · rename_i err hget
        split
        · rename_i hkind
          obtain ⟨wallet, hwallet, hop, hnone⟩ := getIndyObject_missing hget hkind
          exact .inr ⟨⟨wallet, hwallet, hop, hnone⟩, hvalid, rfl⟩
        · exact .inl ⟨_, rfl⟩

theorem execute_wallets (borrowed : Bool) (cmd : DidCommand) :
    (execute crates storage nextId s borrowed cmd).2.wallets = s.wallets := by
  obtain ⟨answer, h⟩ | ⟨_, _, h⟩ := @execute_cases crates storage nextId s borrowed cmd
  · rw [h]
    rfl
  · rw [h]
    cases borrowed with
    | true => rfl
    | false => rfl

theorem acknowledged_wallets (id : ℤ) (added : Except IndyError Unit × DidExecutor) :
    (acknowledged crates storage nextId id added).2.wallets = added.2.wallets := by
  have hrun : ∀ (s : DidExecutor) (err : Option IndyError),
      (executeDeferredCommand crates storage nextId s id err).2.wallets = s.wallets := by
    intro s err
    unfold executeDeferredCommand
    split
    · rfl
    · dsimp only
      split
      · rfl
      · exact execute_wallets true _
  obtain ⟨result, s⟩ := added
  cases result with
  | ok done => exact hrun s none
  | error err => exact hrun s (some err)

theorem acknowledged_error {id : ℤ} {cmd : DidCommand} {err : IndyError}
    (h : s.deferredCommands.lookup id = some cmd) :
    acknowledged crates storage nextId id (.error err, s) =
      ({ s with deferredCommands := s.deferredCommands.erase id } : DidExecutor).call cmd.cb
        (.error err) := by
  simp only [acknowledged, executeDeferredCommand, h]

theorem acknowledged_ok {id : ℤ} {cmd : DidCommand}
    (h : s.deferredCommands.lookup id = some cmd) :
    acknowledged crates storage nextId id (.ok (), s) =
      execute crates storage nextId
        { s with deferredCommands := s.deferredCommands.erase id } true cmd := by
  simp only [acknowledged, executeDeferredCommand, h]

theorem addIndyObject_cases {α : Type} (handle : WalletHandle) (op : DidOperation)
    (type_ name : String) (select : DidWallet → Option α) (insert : DidWallet → DidWallet) :
    (∃ err, addIndyObject storage s handle op type_ name select insert = (.error err, s) ∧
      ∀ wallet, s.wallets handle = some wallet → storage.failure op = none →
        select wallet ≠ none) ∨
      ∃ wallet, s.wallets handle = some wallet ∧ storage.failure op = none ∧
        select wallet = none ∧ addIndyObject storage s handle op type_ name select insert =
          (.ok (), s.setWallet handle (insert wallet)) := by
  unfold addIndyObject
  cases hwallet : s.wallets handle with
  | none =>
    refine .inl ⟨_, rfl, ?_⟩
    intro wallet h
    cases h
  | some wallet =>
    cases hfailed : storage.failure op with
    | some failed =>
      refine .inl ⟨failed, rfl, ?_⟩
      intro wallet' _ hok
      cases hok
    | none =>
      cases hfound : select wallet with
      | some object =>
        dsimp only
        rw [hfound]
        refine .inl ⟨_, rfl, ?_⟩
        intro wallet' h _ hnone
        rw [← Option.some.inj h, hfound] at hnone
        cases hnone
      | none =>
        dsimp only
        rw [hfound]
        exact .inr ⟨wallet, rfl, rfl, hfound, rfl⟩

end IndySdk.DidResolution
