import IndySdk.Base58
import IndySdk.Delimited
import IndySdk.DidSteps

/-!
# Abbreviated keys and the keys of records

A key without a type is abbreviated so that it can be read back. The validation also takes a key
with its type after a colon, and abbreviating such a key fails. The records of other parties hold
full keys, whatever was given for them.
-/

open List

namespace IndySdk.Crypto

/-! ## Keys and their types -/

theorem splitKey_eq (verkey : String) :
    (':' ∉ verkey.toList ∧ splitKey verkey = (verkey, none)) ∨
      ∃ key cryptoType rest, verkey.toList = key ++ ':' :: rest ∧ ':' ∉ key ∧ ':' ∉ cryptoType ∧
        splitKey verkey = (String.ofList key, some (String.ofList cryptoType)) := by
  have hpieces : ∀ piece ∈ verkey.toList.splitOn ':', ':' ∉ piece :=
    fun piece hpiece => Delimited.not_mem_of_mem_splitOn hpiece
  have hjoin : [':'].intercalate (verkey.toList.splitOn ':') = verkey.toList :=
    intercalate_splitOn ':'
  rw [splitKey]
  rcases hsplit : verkey.toList.splitOn ':' with _ | ⟨key, _ | ⟨cryptoType, pieces⟩⟩
  · exact absurd hsplit (splitOn_ne_nil _ _)
  · rw [hsplit] at hpieces hjoin
    rw [intercalate_singleton] at hjoin
    rw [← hjoin]
    exact .inl ⟨hpieces key mem_cons_self, rfl⟩
  · rw [hsplit] at hpieces hjoin
    rw [intercalate_cons_cons] at hjoin
    refine .inr ⟨key, cryptoType, [':'].intercalate (cryptoType :: pieces), ?_,
      hpieces key mem_cons_self,
      hpieces cryptoType (mem_cons_of_mem _ mem_cons_self), rfl⟩
    rw [← hjoin, append_assoc]
    rfl

theorem splitKey_notMem (verkey : String) :
    ':' ∉ (splitKey verkey).1.toList ∧ ∀ name ∈ (splitKey verkey).2, ':' ∉ name.toList := by
  obtain ⟨hcolon, hsplit⟩ | ⟨_, cryptoType, _, _, hkey, htype, hsplit⟩ := splitKey_eq verkey
  · rw [hsplit]
    exact ⟨hcolon, fun name hname => by cases hname⟩
  · rw [hsplit, String.toList_ofList]
    refine ⟨hkey, fun name hname => ?_⟩
    cases hname
    rw [String.toList_ofList]
    exact htype

theorem splitKey_withCryptoType {key : String} {cryptoType : Option String}
    (hkey : ':' ∉ key.toList) (htype : ∀ name ∈ cryptoType, ':' ∉ name.toList) :
    splitKey (withCryptoType key cryptoType) = (key, cryptoType) := by
  cases cryptoType with
  | none => exact LawfulBase58.splitKey_of_notMem hkey
  | some name =>
      have hlist : (withCryptoType key (some name)).toList = key.toList ++ ':' :: name.toList := by
        rw [withCryptoType, String.toList_append, String.toList_append, append_assoc]
        rfl
      rw [splitKey, hlist, splitOn_append_cons_self_of_not_mem hkey,
        splitOn_eq_singleton (htype name rfl), map_cons, map_cons,
        String.ofList_toList, String.ofList_toList]

theorem abbreviated_of_splitKey {verkey rest : String}
    (h : abbreviated (splitKey verkey).1 = some rest) : abbreviated verkey ≠ none := by
  obtain ⟨_, hsplit⟩ | ⟨key, _, tail, hlist, _, _, hsplit⟩ := splitKey_eq verkey
  · rw [hsplit] at h
    rw [h]
    exact Option.some_ne_none _
  · rw [hsplit, abbreviated, String.toList_ofList] at h
    rw [abbreviated, hlist]
    split at h
    · exact Option.some_ne_none _
    · cases h

namespace LawfulBase58

variable {codec : LawfulBase58} {verkey did : String}

theorem notMem_of_decode {text : String} {bytes : Bytes}
    (h : decode codec.base58 text = .ok bytes) : ':' ∉ text.toList := by
  intro hmem
  rw [← codec.encode_decode text bytes (decode_eq_ok.mp h)] at hmem
  exact (codec.alphabet bytes ':' hmem).2 rfl

theorem keyText_of_validateKey (h : validateKey codec.base58 verkey = .ok ())
    (hfull : abbreviated (splitKey verkey).1 = none) :
    ∃ key : PublicKey, (splitKey verkey).1 = codec.keyText key := by
  rw [validateKey] at h
  dsimp only at h
  split at h
  · cases h
  · rw [hfull] at h
    obtain ⟨bytes, hbytes, h⟩ := Outcome.bind_eq_ok_iff.mp h
    rw [publicKeyFromSlice] at h
    split at h
    · rename_i hlength
      exact ⟨⟨bytes, hlength⟩, (codec.encode_decode _ bytes (decode_eq_ok.mp hbytes)).symm⟩
    · cases h

theorem didText_of_validateDid (h : validateDid codec.base58 did = .ok ()) :
    ∃ bytes : DidBytes, did = codec.didText bytes := by
  rw [validateDid] at h
  obtain ⟨bytes, hbytes, h⟩ := Outcome.bind_eq_ok_iff.mp h
  split at h
  · cases h
  · rename_i hlength
    rw [not_and_or, not_not, not_not] at hlength
    exact ⟨⟨bytes, hlength⟩, (codec.encode_decode did bytes (decode_eq_ok.mp hbytes)).symm⟩

theorem colon_notMem_toBase58 (b : Bytes) : ':' ∉ (codec.base58.toBase58 b).toList :=
  fun h => (codec.alphabet b ':' h).2 rfl

theorem buildFullVerkey_shortText (did : DidBytes) (key : PublicKey) :
    buildFullVerkey codec.base58 (codec.didText did) (some (codec.shortText did key)) =
      .ok (codec.keyText key) := by
  have hcolon : ':' ∉ (codec.shortText did key).toList := by
    rw [shortText]
    split
    · rw [String.toList_append, mem_append, not_or]
      exact ⟨by decide, colon_notMem_toBase58 _⟩
    · exact colon_notMem_toBase58 _
  rw [buildFullVerkey, splitKey_of_notMem hcolon]
  dsimp only
  rw [shortText]
  by_cases htake : key.bytes.take 16 = did.bytes
  · have hbytes : did.bytes ++ key.bytes.drop 16 = key.bytes := by
      rw [← htake, take_append_drop]
    rw [if_pos htake, expandVerkey, abbreviated_mark]
    dsimp only
    rw [didText, decode_toBase58, Outcome.ok_bind, decode_toBase58, Outcome.ok_bind, encode, hbytes]
    rfl
  · rw [if_neg htake, keyText, expandVerkey, abbreviated_toBase58]
    rfl

/-- An accepted key that is not abbreviated is abbreviated and read back exactly if no type stands
after it. -/
theorem abbreviate_roundtrip_iff (hdid : validateDid codec.base58 did = .ok ())
    (hkey : validateKey codec.base58 verkey = .ok ()) (hfull : abbreviated verkey = none) :
    (∃ short, abbreviateVerkey codec.base58 did verkey = .ok short ∧
      buildFullVerkey codec.base58 did (some short) = .ok verkey) ↔ ':' ∉ verkey.toList := by
  have hfirst : abbreviated (splitKey verkey).1 = none := by
    cases h : abbreviated (splitKey verkey).1 with
    | none => rfl
    | some rest => exact absurd hfull (abbreviated_of_splitKey h)
  obtain ⟨bytes, rfl⟩ := didText_of_validateDid hdid
  constructor
  · rintro ⟨short, hshort, _⟩
    rw [abbreviateVerkey, hdid, Outcome.ok_bind, hkey, Outcome.ok_bind] at hshort
    obtain ⟨_, _, hshort⟩ := Outcome.bind_eq_ok_iff.mp hshort
    obtain ⟨_, hdecode, _⟩ := Outcome.bind_eq_ok_iff.mp hshort
    exact notMem_of_decode hdecode
  · intro hcolon
    obtain ⟨key, htext⟩ := keyText_of_validateKey hkey hfirst
    rw [splitKey_of_notMem hcolon] at htext
    dsimp only at htext
    rw [htext]
    exact ⟨_, codec.abbreviateVerkey_keyText bytes key, buildFullVerkey_shortText bytes key⟩

theorem abbreviateVerkey_injective {verkey' short : String} (hfull : abbreviated verkey = none)
    (hfull' : abbreviated verkey' = none) (h : abbreviateVerkey codec.base58 did verkey = .ok short)
    (h' : abbreviateVerkey codec.base58 did verkey' = .ok short) : verkey = verkey' := by
  have hread : ∀ verkey, abbreviated verkey = none →
      abbreviateVerkey codec.base58 did verkey = .ok short →
        buildFullVerkey codec.base58 did (some short) = .ok verkey := by
    intro verkey hfull h
    obtain ⟨⟨⟩, hdid, hrest⟩ := Outcome.bind_eq_ok_iff.mp h
    obtain ⟨⟨⟩, hkey, hrest⟩ := Outcome.bind_eq_ok_iff.mp hrest
    obtain ⟨_, _, hrest⟩ := Outcome.bind_eq_ok_iff.mp hrest
    obtain ⟨_, hdecode, _⟩ := Outcome.bind_eq_ok_iff.mp hrest
    obtain ⟨short', hshort', hbuild⟩ :=
      (abbreviate_roundtrip_iff hdid hkey hfull).mpr (notMem_of_decode hdecode)
    rw [h] at hshort'
    cases hshort'
    exact hbuild
  have hone := hread verkey hfull h
  rw [hread verkey' hfull' h'] at hone
  exact (Outcome.ok.inj hone).symm

/-! ## The keys of records -/

/-- A key with all its bytes, whether its type stands after it or not. -/
def HoldsFullKey (codec : LawfulBase58) (theirDid : TheirDid) : Prop :=
  ∃ key : PublicKey, (splitKey theirDid.verkey).1 = codec.keyText key

theorem createTheirDid_holdsFullKey {info : TheirDidInfo} {theirDid : TheirDid}
    (h : createTheirDid codec.base58 info = .ok theirDid) : codec.HoldsFullKey theirDid := by
  obtain ⟨did, verkey⟩ := info
  obtain ⟨bytes, hdid, h⟩ := Outcome.bind_eq_ok_iff.mp h
  obtain ⟨built, hbuilt, h⟩ := Outcome.bind_eq_ok_iff.mp h
  obtain ⟨⟨⟩, hvalid, h⟩ := Outcome.bind_eq_ok_iff.mp h
  cases h
  apply keyText_of_validateKey hvalid
  cases verkey with
  | none =>
      cases hbuilt
      rw [splitKey_of_notMem (notMem_of_decode hdid),
        ← codec.encode_decode did bytes (decode_eq_ok.mp hdid)]
      exact codec.abbreviated_toBase58 bytes
  | some verkey =>
      obtain ⟨hfirst, htype⟩ := splitKey_notMem verkey
      rw [buildFullVerkey] at hbuilt
      cases hsplit : splitKey verkey with
      | mk key cryptoType =>
          rw [hsplit] at hbuilt hfirst htype
          obtain ⟨expanded, hexpanded, hbuilt⟩ := Outcome.map_eq_ok_iff.mp hbuilt
          have hnew : ':' ∉ expanded.toList ∧ abbreviated expanded = none := by
            rw [expandVerkey] at hexpanded
            cases hshort : abbreviated key with
            | none =>
                rw [hshort] at hexpanded
                cases hexpanded
                exact ⟨hfirst, hshort⟩
            | some rest =>
                rw [hshort] at hexpanded
                obtain ⟨_, _, hexpanded⟩ := Outcome.bind_eq_ok_iff.mp hexpanded
                obtain ⟨_, _, hexpanded⟩ := Outcome.bind_eq_ok_iff.mp hexpanded
                cases hexpanded
                exact ⟨colon_notMem_toBase58 _, codec.abbreviated_toBase58 _⟩
          rw [← hbuilt, splitKey_withCryptoType hnew.1 htype]
          exact hnew.2

end LawfulBase58

end IndySdk.Crypto

namespace IndySdk.DidResolution

/-! ## Storing a record of another party -/

section

variable (crates : DidCrates) (storage : StorageFailures)

def storeTheirDid (s : DidExecutor) (walletHandle : WalletHandle)
    (theirDidInfo : Crypto.TheirDidInfo) : IndyResult Unit × DidExecutor :=
  match Crypto.createTheirDid crates.base58 theirDidInfo with
  | .err err => (.err err, s)
  | .panic => (.panic, { s with panicked := true })
  | .ok theirDid =>
    match addTheirDid storage s walletHandle theirDid with
    | (.ok _, s) => (.ok (), s)
    | (.error err, s) => (.err err, s)

end

/-- The events of the executor, and the command that stores a record. -/
inductive RecordInput where
  | did (input : DidInput)
  | storeTheirDid (storage : StorageFailures) (walletHandle : WalletHandle)
      (theirDidInfo : Crypto.TheirDidInfo)

def recordMachine (crates : DidCrates) :
    Machine DidSystem RecordInput (List Effect ⊕ IndyResult Unit) where
  step
    | .did input, s =>
      let (effects, s) := (didMachine crates).step input s
      (.inl effects, s)
    | .storeTheirDid storage walletHandle theirDidInfo, s =>
      if s.executor.panicked then (.inr .panic, s)
      else
        let (result, executor) := storeTheirDid crates storage s.executor walletHandle theirDidInfo
        (.inr result, { s with executor := executor })

/-- Every record of another party that the second family of wallets has is in the first, or holds
a full key. -/
def NewKeysFull (codec : Crypto.LawfulBase58) (before after : WalletHandle → Option DidWallet) :
    Prop :=
  ∀ handle wallet did theirDid, after handle = some wallet → wallet.theirDids did = some theirDid →
    (∃ old, before handle = some old ∧ old.theirDids did = some theirDid) ∨
      codec.HoldsFullKey theirDid

section

variable {codec : Crypto.LawfulBase58} {fromStr : String → Option Json}
  {before between after : WalletHandle → Option DidWallet}

theorem NewKeysFull.refl : NewKeysFull codec before before :=
  fun _ wallet _ _ hwallet htheir => .inl ⟨wallet, hwallet, htheir⟩

theorem NewKeysFull.trans (h : NewKeysFull codec before between)
    (h' : NewKeysFull codec between after) : NewKeysFull codec before after := by
  intro handle wallet did theirDid hwallet htheir
  obtain ⟨old, hold, htheir⟩ | hfull := h' handle wallet did theirDid hwallet htheir
  · exact h handle old did theirDid hold htheir
  · exact .inr hfull

theorem newKeysFull_update {handle : WalletHandle} {wallet wallet' : DidWallet}
    (hwallet : before handle = some wallet)
    (h : ∀ did theirDid, wallet'.theirDids did = some theirDid →
      wallet.theirDids did = some theirDid ∨ codec.HoldsFullKey theirDid) :
    NewKeysFull codec before (Function.update before handle (some wallet')) := by
  intro handle' wallet'' did theirDid hwallet'' htheir
  by_cases hh : handle' = handle
  · rw [hh, Function.update_self] at hwallet''
    cases hwallet''
    obtain hold | hfull := h did theirDid htheir
    · rw [hh]
      exact .inl ⟨wallet, hwallet, hold⟩
    · exact .inr hfull
  · rw [Function.update_of_ne hh] at hwallet''
    exact .inl ⟨wallet'', hwallet'', htheir⟩

variable {storage : StorageFailures} {nextId : ℤ} {s : DidExecutor}

theorem addTheirDid_newKeysFull {handle : WalletHandle} {theirDid : Crypto.TheirDid}
    (hfull : codec.HoldsFullKey theirDid) :
    NewKeysFull codec s.wallets (addTheirDid storage s handle theirDid).2.wallets := by
  obtain ⟨err, hadd, _⟩ | ⟨wallet, hwallet, _, _, hadd⟩ :=
    @addIndyObject_cases storage s _ handle .addTheirDid "Indy::TheirDid" theirDid.did
      (fun wallet => wallet.theirDids theirDid.did) (fun wallet => wallet.insertTheirDid theirDid)
  · rw [addTheirDid, hadd]
    exact .refl
  · rw [addTheirDid, hadd]
    apply newKeysFull_update hwallet
    intro did theirDid' htheir
    by_cases hdid : did = theirDid.did
    · simp only [DidWallet.insertTheirDid, hdid, Function.update_self, Option.some.injEq] at htheir
      exact .inr (htheir ▸ hfull)
    · simp only [DidWallet.insertTheirDid, Function.update_of_ne hdid] at htheir
      exact .inl htheir

theorem addEndpoint_newKeysFull {handle : WalletHandle} {did : String}
    {endpoint : Domain.Endpoint} :
    NewKeysFull codec s.wallets (addEndpoint storage s handle did endpoint).2.wallets := by
  obtain ⟨err, hadd, _⟩ | ⟨wallet, hwallet, _, _, hadd⟩ :=
    @addIndyObject_cases storage s _ handle .addEndpoint "Indy::Endpoint" did
      (fun wallet => wallet.endpoints did) (fun wallet => wallet.insertEndpoint did endpoint)
  · rw [addEndpoint, hadd]
    exact .refl
  · rw [addEndpoint, hadd]
    exact newKeysFull_update hwallet (fun _ _ htheir => .inl htheir)

theorem deliver_newKeysFull (ack : Ack) (result : Except IndyError String) :
    NewKeysFull codec s.wallets
      (deliver ⟨codec.base58, fromStr⟩ storage nextId s ack result).2.wallets := by
  obtain ⟨kind, walletHandle, id⟩ := ack
  cases kind with
  | getNymAck =>
      cases result with
      | error err =>
          simp only [deliver, getNymAck, acknowledged_wallets]
          exact .refl
      | ok reply =>
          cases hreply : theirDidOfReply ⟨codec.base58, fromStr⟩ reply with
          | panic =>
              simp only [deliver, getNymAck, hreply]
              exact .refl
          | err err =>
              simp only [deliver, getNymAck, hreply, acknowledged_wallets]
              exact .refl
          | ok theirDid =>
              obtain ⟨info, _, _, hcreate, _⟩ := theirDidOfReply_ok hreply
              simp only [deliver, getNymAck, hreply, acknowledged_wallets]
              exact addTheirDid_newKeysFull
                (Crypto.LawfulBase58.createTheirDid_holdsFullKey hcreate)
  | getAttribAck =>
      cases result with
      | error err =>
          simp only [deliver, getAttribAck, acknowledged_wallets]
          exact .refl
      | ok reply =>
          cases hreply : endpointOfReply ⟨codec.base58, fromStr⟩ reply with
          | panic =>
              simp only [deliver, getAttribAck, hreply]
              exact .refl
          | err err =>
              simp only [deliver, getAttribAck, hreply, acknowledged_wallets]
              exact .refl
          | ok found =>
              simp only [deliver, getAttribAck, hreply, acknowledged_wallets]
              exact addEndpoint_newKeysFull

theorem recordMachine_step (input : RecordInput) (s : DidSystem) :
    NewKeysFull codec s.executor.wallets
      ((recordMachine ⟨codec.base58, fromStr⟩).step input s).2.executor.wallets := by
  cases input with
  | did input =>
      simp only [recordMachine, didMachine]
      split_ifs with hpanicked
      · exact .refl
      · cases input.event with
        | command cmd =>
            simp only [DidSystem.after, execute_wallets]
            exact .refl
        | reply i result =>
            dsimp only
            cases s.inFlight[i]? with
            | none => exact .refl
            | some ack => exact deliver_newKeysFull ack result
  | storeTheirDid storage walletHandle info =>
      simp only [recordMachine]
      split_ifs with hpanicked
      · exact .refl
      · rw [storeTheirDid]
        cases hcreate : Crypto.createTheirDid codec.base58 info with
        | err err => exact .refl
        | panic => exact .refl
        | ok theirDid =>
            have hadd := @addTheirDid_newKeysFull codec storage s.executor walletHandle theirDid
              (Crypto.LawfulBase58.createTheirDid_holdsFullKey hcreate)
            dsimp only
            generalize addTheirDid storage s.executor walletHandle theirDid = added at hadd ⊢
            obtain ⟨result, executor⟩ := added
            cases result <;> exact hadd

theorem recordMachine_run (inputs : List RecordInput) (s : DidSystem) :
    NewKeysFull codec s.executor.wallets
      ((recordMachine ⟨codec.base58, fromStr⟩).run inputs s).executor.wallets := by
  induction inputs generalizing s with
  | nil => exact .refl
  | cons input inputs ih => exact (recordMachine_step input s).trans (ih _)

end

/-- Under a valid DID an accepted key that is not abbreviated is abbreviated and read back exactly
if no type stands after it, and no two keys have one abbreviation; and no record of another party
is ever created but with a full key. -/
theorem verkeyAbbreviation_iff (codec : Crypto.LawfulBase58) (fromStr : String → Option Json)
    {did : String} (hdid : Crypto.validateDid codec.base58 did = .ok ()) :
    (∀ verkey, Crypto.validateKey codec.base58 verkey = .ok () → Crypto.abbreviated verkey = none →
      ((∃ short, Crypto.abbreviateVerkey codec.base58 did verkey = .ok short ∧
          Crypto.buildFullVerkey codec.base58 did (some short) = .ok verkey) ↔
        ':' ∉ verkey.toList)) ∧
    (∀ verkey verkey' short, Crypto.abbreviated verkey = none →
      Crypto.abbreviated verkey' = none →
      Crypto.abbreviateVerkey codec.base58 did verkey = .ok short →
      Crypto.abbreviateVerkey codec.base58 did verkey' = .ok short → verkey = verkey') ∧
    ∀ inputs s, NewKeysFull codec s.executor.wallets
      ((recordMachine ⟨codec.base58, fromStr⟩).run inputs s).executor.wallets :=
  ⟨fun _ hkey hfull => Crypto.LawfulBase58.abbreviate_roundtrip_iff hdid hkey hfull,
    fun _ _ _ => Crypto.LawfulBase58.abbreviateVerkey_injective, recordMachine_run⟩

/-- A DID of sixteen zero bytes. -/
def zeroDid : Crypto.DidBytes := ⟨List.replicate 16 0, .inl rfl⟩

def zeroKey : Crypto.PublicKey := ⟨List.replicate 32 0, rfl⟩

theorem verkeyAbbreviation_zero :
    (∀ verkey, Crypto.validateKey Crypto.rustBase58 verkey = .ok () →
      Crypto.abbreviated verkey = none →
      ((∃ short, Crypto.abbreviateVerkey Crypto.rustBase58
            (Crypto.rustBase58Codec.didText zeroDid) verkey = .ok short ∧
          Crypto.buildFullVerkey Crypto.rustBase58 (Crypto.rustBase58Codec.didText zeroDid)
            (some short) = .ok verkey) ↔
        ':' ∉ verkey.toList)) ∧
    (∀ verkey verkey' short, Crypto.abbreviated verkey = none →
      Crypto.abbreviated verkey' = none →
      Crypto.abbreviateVerkey Crypto.rustBase58 (Crypto.rustBase58Codec.didText zeroDid) verkey =
        .ok short →
      Crypto.abbreviateVerkey Crypto.rustBase58 (Crypto.rustBase58Codec.didText zeroDid) verkey' =
        .ok short → verkey = verkey') ∧
    ∀ inputs s, NewKeysFull Crypto.rustBase58Codec s.executor.wallets
      ((recordMachine ⟨Crypto.rustBase58, fun _ => none⟩).run inputs s).executor.wallets :=
  verkeyAbbreviation_iff Crypto.rustBase58Codec (fun _ => none)
    (Crypto.rustBase58Codec.validateDid_didText zeroDid)

/-- The key of a DID with its type after it is accepted, but it is not abbreviated. -/
theorem typedKey_not_abbreviated :
    Crypto.validateDid Crypto.rustBase58 "1111111111111111" = .ok () ∧
      Crypto.validateKey Crypto.rustBase58 "11111111111111111111111111111111:ed25519" = .ok () ∧
      Crypto.abbreviated "11111111111111111111111111111111:ed25519" = none ∧
      ∃ err, Crypto.abbreviateVerkey Crypto.rustBase58 "1111111111111111"
        "11111111111111111111111111111111:ed25519" = .err err := by
  refine ⟨?_, ?_, ?_, errMsg .invalidStructure "Invalid base58 sequence: _"
    ["Invalid base58 character"], ?_⟩
  · decide +kernel
  · decide +kernel
  · decide +kernel
  · decide +kernel

end IndySdk.DidResolution
