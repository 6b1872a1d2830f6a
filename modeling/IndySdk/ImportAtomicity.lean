import IndySdk.ImportService
import IndySdk.WalletRoundTrip

/-!
# What a failed import leaves behind

An import that fails after its storage was created has to delete it again. It does so only when the
records cannot be added; when the new storage cannot be opened, or when a wallet of the id is open
already, the storage stays. A deletion takes the storages below the directory with it.
-/

namespace IndySdk.Imports

open Outcome Function
open Chacha20Poly1305Ietf (Reader)
open Wallet (Db ExportRecord Key Keys KeyDerivationData Nonce Represents RecordMap
  Store TagsOfItems ValueRandomness WalletRecord)
open Wallets (Config attempt attempt_eq_ok)

variable {env : Environment}

/-- The records that a reader gives before the zero length. -/
inductive Reads (env : Environment) : Reader → List ExportRecord → Prop where
  | done {r r' : Reader} (hnext : Wallet.nextRecord env.crates env.wc r = .ok (none, r')) :
    Reads env r []
  | record {r r' : Reader} {record : ExportRecord} {records : List ExportRecord}
    (hnext : Wallet.nextRecord env.crates env.wc r = .ok (some record, r'))
    (hrest : Reads env r' records) : Reads env r (record :: records)

/-- The wallet lists the records of the file, in any order. -/
def HoldsFile (env : Environment) (keys : Keys) (importKey : Key)
    (pending : PendingImport env.crates.saltBytes) (db : Db) : Prop :=
  ∃ r records, Wallet.openStream env.crates env.wc env.overflowChecks importKey
      pending.preparsed = .ok r ∧ Reads env r records ∧
    ∀ order : IterationOrder, ∃ l, Wallet.getAll env.wc keys order db = .ok l ∧
      (l.map WalletRecord.view).Perm (records.map ExportRecord.view)

namespace WalletService

variable (s : WalletService env)

/-- An import that fails leaves all storages and the open wallets as they were. After one that
succeeds there is one more storage, which has the records of the file and is not open. -/
def ImportAtomic (walletHandle : ℤ) (config : Config) (credentials : Credentials)
    (importKey masterKey : Key) (random : Randomness) (answers : Answers) : Prop :=
  match s.importWalletContinue walletHandle config credentials importKey masterKey random
    answers with
  | (.err _, s') => s'.storages = s.storages ∧ s'.wallets = s.wallets
  | (.ok (), s') => s'.isOpen config.id = false ∧ ∃ pending directory db,
      s.pendingForImport.lookup walletHandle = some pending ∧
      getDirectory env config credentials = .ok directory ∧ s.storages directory = none ∧
      s'.storages = Function.update s.storages directory (some db) ∧
      HoldsFile env random.keys importKey pending db
  | (.panic, _) => True

/-- No storage but the new one is removed when the new one is deleted, and that one is. -/
def DeletedAlone (directory : Directory) (answers : Answers) : Prop :=
  answers.keeps directory = false ∧
    ∀ d, directory <+: d → d ≠ directory → s.storages d ≠ none → answers.keeps d = true

/-- What has to be the case when the storage of an import is about to be created. -/
def Undoable (walletHandle : ℤ) (config : Config) (credentials : Credentials)
    (importKey masterKey : Key) (random : Randomness) (answers : Answers) : Prop :=
  ∀ pending directory metadata, s.pendingForImport.lookup walletHandle = some pending →
    prepareStorage config credentials pending.keyData masterKey random =
      .ok (directory, metadata) →
    s.storages directory = none →
      (∀ e left, answers.createStorage = some (e, left) → left = none) ∧
      (answers.createStorage = none →
        s.isOpen config.id = false ∧ answers.openStorage = none ∧ answers.getMetadata = none ∧
        ∀ e, (finishImport env random answers importKey pending.preparsed
            (Store.create metadata).db).1 = .err e → s.DeletedAlone directory answers)

end WalletService

/-! ### The records that are added -/

theorem reads_of_readRecords {keys : Keys} {random : ℕ → ValueRandomness}
    {refused : ℕ → Option IndyError} {r : Reader} {added : ℕ} {db db' : Db}
    (h : readRecords env keys random refused r added db = (.ok (), db')) :
    ∃ records, Reads env r records ∧
      Wallet.addAll env.wc keys random added records db = (.ok (), db') := by
  fun_induction readRecords env keys random refused r added db with
  | case1 => cases h
  | case2 => cases h
  | case3 r added db r' hnext =>
    cases h
    exact ⟨[], .done hnext, rfl⟩
  | case4 => cases h
  | case5 r added db record r' hnext hrefused db₁ hadd ih =>
    obtain ⟨records, hreads, hall⟩ := ih h
    refine ⟨record :: records, .record hnext hreads, ?_⟩
    rw [Wallet.addAll, hadd]
    exact hall
  | case6 => cases h
  | case7 => cases h

theorem lists_of_addAll {keys : Keys} {random : ℕ → ValueRandomness}
    {records : List ExportRecord} {added : ℕ} {db db' : Db} {m : RecordMap}
    {l : List Wallet.Record}
    (hall : Wallet.addAll env.wc keys random added records db = (.ok (), db'))
    (h : Represents env.wc keys db m) (hitems : TagsOfItems db) (hlists : RecordMap.Lists l m) :
    ∃ m', Represents env.wc keys db' m' ∧
      RecordMap.Lists (l ++ records.map ExportRecord.view) m' := by
  induction records generalizing added db m l with
  | nil =>
    cases hall
    refine ⟨m, h, ?_⟩
    rw [List.map_nil, List.append_nil]
    exact hlists
  | cons record records ih =>
    cases hnone : m (record.type, record.id) with
    | some e =>
      obtain ⟨r, hr, -⟩ := h.selectItem_of_some hnone
      rw [Wallet.addAll, Wallet.add, Wallet.SQLiteStorage.add_of_some hr] at hall
      cases hall
    | none =>
      obtain ⟨db₁, hadd, hrep, hitems₁⟩ :=
        Wallet.add_fresh h hitems hnone record.value record.tags (random added)
      rw [Wallet.addAll, hadd] at hall
      obtain ⟨m', hrep', hlists'⟩ := ih hall hrep hitems₁ (hlists.insert hnone _)
      refine ⟨m', hrep', ?_⟩
      rw [List.append_assoc] at hlists'
      exact hlists'

theorem holdsFile_of_finishImport {random : Randomness} {answers : Answers} {importKey : Key}
    {pending : PendingImport env.crates.saltBytes} {metadata : Bytes} {db : Db}
    (h : finishImport env random answers importKey pending.preparsed
      (Store.create metadata).db = (.ok (), db)) :
    HoldsFile env random.keys importKey pending db := by
  unfold finishImport at h
  split at h
  · rename_i r hr
    obtain ⟨records, hreads, hall⟩ := reads_of_readRecords h
    have hempty : RecordMap.Lists [] RecordMap.empty := by
      refine ⟨List.nodup_nil, fun r => ⟨fun hr => absurd hr List.not_mem_nil, ?_⟩⟩
      rintro ⟨type, name, e, he, -⟩
      cases he
    obtain ⟨m, hrep, hlists⟩ := lists_of_addAll hall (Wallet.represents_create metadata)
      (Wallet.tagsOfItems_create metadata) hempty
    rw [List.nil_append] at hlists
    refine ⟨r, records, hr, hreads, ?_⟩
    intro order
    obtain ⟨l, hget, hl⟩ := @Wallet.getAll_lists _ _ order _ _ hrep
    refine ⟨l, hget, (List.perm_ext_iff_of_nodup hl.1 hlists.1).mpr ?_⟩
    intro record
    rw [hl.2, hlists.2]
  · cases h
  · cases h

/-! ### The metadata of a new storage -/

theorem deserializeEncrypted_serializeEncrypted {keys : Keys} {masterKey : Key} {nonce : Nonce}
    {bytes : Bytes} (h : serializeEncrypted env keys masterKey nonce = .ok bytes) :
    deserializeEncrypted env bytes masterKey = .ok keys := by
  obtain ⟨serialized, hserialized, h⟩ := bind_eq_ok_iff.mp h
  cases h
  have hkeys := env.metadataCrates.keysFromSlice_toVec _ _ (ofOption_eq_ok.mp hserialized)
  rw [deserializeEncrypted, Wallet.decryptMerged_encryptAsNotSearchable, ok_bind, hkeys]
  rfl

theorem prepareStorage_eq_ok {config : Config} {credentials : Credentials}
    {keyData : KeyDerivationData env.crates.saltBytes} {masterKey : Key} {random : Randomness}
    {directory : Directory} {metadata : Bytes}
    (h : WalletService.prepareStorage config credentials keyData masterKey random =
      .ok (directory, metadata)) :
    config.checkId = .ok () ∧ getDirectory env config credentials = .ok directory ∧
      ∃ m, env.metadataCrates.metadataFromSlice metadata = some m ∧
        restoreKeys env m masterKey = .ok random.keys := by
  obtain ⟨_, hid, h⟩ := bind_eq_ok_iff.mp h
  obtain ⟨storageType, htype, h⟩ := bind_eq_ok_iff.mp h
  obtain ⟨bytes, hbytes, h⟩ := bind_eq_ok_iff.mp h
  obtain ⟨place, hplace, h⟩ := bind_eq_ok_iff.mp h
  cases h
  obtain ⟨encryptedKeys, hkeys, hbytes⟩ := bind_eq_ok_iff.mp hbytes
  have hrestored := deserializeEncrypted_serializeEncrypted hkeys
  have hmetadata := env.metadataCrates.metadataFromSlice_toVec _ _
    (ofOption_eq_ok.mp hbytes)
  refine ⟨hid, ?_, _, hmetadata, ?_⟩
  · rw [getDirectory, htype]
    exact hplace
  · rw [restoreKeys, toIndy_eq_ok]
    cases keyData with
    | raw => exact hrestored
    | argon2iInt => exact hrestored
    | argon2iMod => exact hrestored

namespace WalletService

variable {s : WalletService env}

theorem exists_cleanUp_eq {config : Config} {credentials : Credentials} {masterKey : Key}
    {random : Randomness} {answers : Answers} {directory : Directory} {metadata : Bytes}
    {m : Metadata} (hdirectory : getDirectory env config credentials = .ok directory)
    (hm : env.metadataCrates.metadataFromSlice metadata = some m)
    (hkeys : restoreKeys env m masterKey = .ok random.keys)
    (hsome : (s.storages directory).isSome) (e : IndyError) :
    ∃ e', s.cleanUp config credentials metadata masterKey answers e = (.err e', { s with
      storages := fun d =>
        if directory <+: d ∧ !answers.keeps d then none else s.storages d }) := by
  rw [cleanUp, hm, ofOption_some]
  dsimp only
  rw [deleteWalletContinue, hkeys, ok_bind, hdirectory]
  dsimp only
  rw [deleteStorage, if_pos hsome]
  cases hdelete : answers.deleteStorage with
  | none => exact ⟨e, rfl⟩
  | some refusal => exact ⟨refusal.1, rfl⟩

/-! ### One import -/

theorem update_ne_self {storages : Directory → Option Db} {directory : Directory}
    (hnone : storages directory = none) (db : Db) :
    Function.update storages directory (some db) ≠ storages := by
  intro h
  have hat := congrFun h directory
  rw [update_self, hnone] at hat
  cases hat

theorem deleted_eq_iff {directory : Directory} (hnone : s.storages directory = none)
    (answers : Answers) (db : Db) :
    (fun d => if directory <+: d ∧ !answers.keeps d then none
      else Function.update s.storages directory (some db) d) = s.storages ↔
      s.DeletedAlone directory answers := by
  rw [DeletedAlone, funext_iff]
  constructor
  · intro h
    refine ⟨?_, ?_⟩
    · by_contra hkeeps
      have hat := h directory
      rw [if_neg (by simp [hkeeps]), update_self, hnone] at hat
      cases hat
    · intro d hbelow hne hstored
      by_contra hkeeps
      have hat := h d
      rw [if_pos ⟨hbelow, by simp [hkeeps]⟩] at hat
      exact hstored hat.symm
  · rintro ⟨hgone, hkept⟩ d
    by_cases hd : d = directory
    · subst hd
      rw [if_pos ⟨List.prefix_rfl, by simp [hgone]⟩, hnone]
    · rw [update_of_ne hd]
      by_cases hremoved : directory <+: d ∧ !answers.keeps d
      · rw [if_pos hremoved]
        by_contra hstored
        have hkeeps := hkept d hremoved.1 hd (Ne.symm hstored)
        simp [hkeeps] at hremoved
      · rw [if_neg hremoved]

theorem openCreated_eq {config : Config} {credentials : Credentials} {answers : Answers}
    {directory : Directory} {db : Db} (hid : config.checkId = .ok ())
    (hdirectory : getDirectory env config credentials = .ok directory)
    (hsome : s.storages directory = some db) :
    (s.isOpen config.id = false ∧ answers.openStorage = none ∧ answers.getMetadata = none ∧
        s.openCreated config credentials answers = .ok (directory, db)) ∨
      ¬ (s.isOpen config.id = false ∧ answers.openStorage = none ∧ answers.getMetadata = none) ∧
        ∃ e, s.openCreated config credentials answers = .err e := by
  rw [openCreated, isIdFromConfigNotUsed, hid, ok_bind, openStorage, hdirectory,
    ok_bind, hsome, ofOption_some, ok_bind]
  cases hopen : s.isOpen config.id with
  | true => exact .inr ⟨(fun h => by cases h.1), _, rfl⟩
  | false =>
    cases answers.openStorage with
    | some e => exact .inr ⟨(fun h => by cases h.2.1), e, rfl⟩
    | none =>
      cases answers.getMetadata with
      | some e => exact .inr ⟨(fun h => by cases h.2.2), e, rfl⟩
      | none => exact .inl ⟨rfl, rfl, rfl, rfl⟩

section Continue

variable {walletHandle : ℤ} {config : Config} {credentials : Credentials}
  {importKey masterKey : Key} {random : Randomness} {answers : Answers}
  {pending : PendingImport env.crates.saltBytes} {directory : Directory} {metadata : Bytes}

theorem undoable_iff (hpending : s.pendingForImport.lookup walletHandle = some pending)
    (hprepare : prepareStorage config credentials pending.keyData masterKey random =
      .ok (directory, metadata)) (hnone : s.storages directory = none) :
    s.Undoable walletHandle config credentials importKey masterKey random answers ↔
      (∀ e left, answers.createStorage = some (e, left) → left = none) ∧
      (answers.createStorage = none →
        s.isOpen config.id = false ∧ answers.openStorage = none ∧ answers.getMetadata = none ∧
        ∀ e, (finishImport env random answers importKey pending.preparsed
            (Store.create metadata).db).1 = .err e → s.DeletedAlone directory answers) := by
  constructor
  · intro h
    exact h pending directory metadata hpending hprepare hnone
  · intro h pending' directory' metadata' hpending' hprepare' _
    cases hpending.symm.trans hpending'
    cases hprepare.symm.trans hprepare'
    exact h

/-- The import of a storage that was created. -/
theorem importAtomic_iff_of_created
    (hpending : s.pendingForImport.lookup walletHandle = some pending)
    (hprepare : prepareStorage config credentials pending.keyData masterKey random =
      .ok (directory, metadata)) (hnone : s.storages directory = none)
    (hcreate : answers.createStorage = none) :
    s.ImportAtomic walletHandle config credentials importKey masterKey random answers ↔
      s.isOpen config.id = false ∧ answers.openStorage = none ∧ answers.getMetadata = none ∧
      ∀ e, (finishImport env random answers importKey pending.preparsed
          (Store.create metadata).db).1 = .err e → s.DeletedAlone directory answers := by
  obtain ⟨hid, hdirectory, m, hm, hkeys⟩ := prepareStorage_eq_ok hprepare
  have hcreated : ({ s with pendingForImport := s.pendingForImport.erase walletHandle } :
      WalletService env).createWallet config credentials pending.keyData masterKey random
        answers = (.ok (), ⟨Function.update s.storages directory (some (Store.create metadata).db),
          s.wallets, s.pendingForImport.erase walletHandle⟩) := by
    rw [createWallet, hprepare]
    dsimp only
    rw [createStorage, hnone, hcreate]
    rfl
  rw [ImportAtomic, importWalletContinue, hpending]
  dsimp only
  rw [hcreated]
  dsimp only
  obtain ⟨hfree, hopen, hmetadata, hopened⟩ | ⟨hrefused, e, hopened⟩ :=
    @openCreated_eq _ ⟨Function.update s.storages directory (some (Store.create metadata).db),
      s.wallets, s.pendingForImport.erase walletHandle⟩ config credentials answers directory _ hid
      hdirectory (update_self ..)
  · rw [hopened]
    dsimp only
    have hfree' : s.isOpen config.id = false := hfree
    simp only [hfree', hopen, hmetadata, true_and, update_idem]
    cases hfinish : finishImport env random answers importKey pending.preparsed
        (Store.create metadata).db with
    | mk result db =>
      cases result with
      | ok =>
        refine iff_of_true ⟨hfree, pending, directory, db, rfl, hdirectory, hnone, rfl, ?_⟩ ?_
        · exact holdsFile_of_finishImport hfinish
        · intro e h
          cases h
      | panic =>
        refine iff_of_true trivial ?_
        intro e h
        cases h
      | err e =>
        dsimp only
        obtain ⟨e', hclean⟩ := @exists_cleanUp_eq _ ⟨Function.update s.storages directory (some db),
          s.wallets, s.pendingForImport.erase walletHandle⟩ config credentials masterKey random
          answers directory metadata m hdirectory hm hkeys (by simp) e
        have hdb : (Store.create metadata).db.metadata = metadata := rfl
        rw [hdb, hclean]
        dsimp only
        rw [and_iff_left rfl, deleted_eq_iff hnone]
        constructor
        · intro h _ _
          exact h
        · intro h
          exact h e rfl
  · rw [hopened]
    refine iff_of_false ?_ ?_
    · rintro ⟨hsame, -⟩
      exact update_ne_self hnone _ hsame
    · rintro ⟨hfree, hopen, hmetadata, -⟩
      exact hrefused ⟨hfree, hopen, hmetadata⟩

end Continue

/-- An import leaves all or nothing exactly when its failures can be undone: when creating a storage
fails cleanly, a new storage can be opened for an id that is not open, and a new storage whose
records cannot be added is deleted without any other. -/
theorem importWalletContinue_atomic_iff (s : WalletService env) (walletHandle : ℤ) (config : Config)
    (credentials : Credentials) (importKey masterKey : Key) (random : Randomness)
    (answers : Answers) :
    s.ImportAtomic walletHandle config credentials importKey masterKey random answers ↔
      s.Undoable walletHandle config credentials importKey masterKey random answers := by
  cases hpending : s.pendingForImport.lookup walletHandle with
  | none =>
    refine iff_of_true ?_ ?_
    · rw [ImportAtomic, importWalletContinue, hpending]
      trivial
    · intro pending directory metadata hpending'
      cases hpending.symm.trans hpending'
  | some pending =>
    cases hprepare : prepareStorage config credentials pending.keyData masterKey random with
    | err e =>
      refine iff_of_true ?_ ?_
      · rw [ImportAtomic, importWalletContinue, hpending]
        dsimp only
        rw [createWallet, hprepare]
        exact ⟨rfl, rfl⟩
      · intro pending' directory metadata hpending' hprepare'
        cases hpending.symm.trans hpending'
        cases hprepare.symm.trans hprepare'
    | panic =>
      refine iff_of_true ?_ ?_
      · rw [ImportAtomic, importWalletContinue, hpending]
        dsimp only
        rw [createWallet, hprepare]
        trivial
      · intro pending' directory metadata hpending' hprepare'
        cases hpending.symm.trans hpending'
        cases hprepare.symm.trans hprepare'
    | ok place =>
      obtain ⟨directory, metadata⟩ := place
      cases hstored : s.storages directory with
      | some db =>
        refine iff_of_true ?_ ?_
        · rw [ImportAtomic, importWalletContinue, hpending]
          dsimp only
          rw [createWallet, hprepare]
          dsimp only
          rw [createStorage, if_pos (by rw [hstored]; rfl)]
          exact ⟨rfl, rfl⟩
        · intro pending' directory' metadata' hpending' hprepare' hnone
          cases hpending.symm.trans hpending'
          cases hprepare.symm.trans hprepare'
          cases hstored.symm.trans hnone
      | none =>
        rw [undoable_iff hpending hprepare hstored]
        cases hcreate : answers.createStorage with
        | none =>
          rw [importAtomic_iff_of_created hpending hprepare hstored hcreate]
          simp only [reduceCtorEq, false_implies, implies_true, true_and, forall_const]
        | some refusal =>
          obtain ⟨e, left⟩ := refusal
          rw [ImportAtomic, importWalletContinue, hpending]
          dsimp only
          rw [createWallet, hprepare]
          dsimp only
          rw [createStorage, if_neg (by rw [hstored]; simp), hcreate]
          cases left with
          | none =>
            refine iff_of_true ⟨rfl, rfl⟩ ⟨?_, fun h => by cases h⟩
            intro e' left h
            cases h
            rfl
          | some db =>
            refine iff_of_false ?_ ?_
            · rintro ⟨hsame, -⟩
              exact update_ne_self hstored db hsame
            · rintro ⟨hclean, -⟩
              cases hclean e (some db) rfl

end WalletService

/-! ### An import under the id of an open wallet -/

deriving instance DecidableEq for Wallet.Key, Wallet.HmacKey, Wallet.Keys

/-- Encodings of one set of keys and of the metadata of raw keys. -/
def zeroKeysCrates : MetadataCrates where
  keysToVec := fun keys => if keys = Wallet.zeroKeys then some (List.replicate 224 0) else none
  keysFromSlice := fun bytes =>
    if bytes = List.replicate 224 0 then some Wallet.zeroKeys else none
  keysFromSlice_toVec := by
    intro keys bytes h
    obtain ⟨rfl, hbytes⟩ := Option.ite_none_right_eq_some.mp h
    exact if_pos (Option.some.inj hbytes).symm
  metadataToVec := fun
    | .raw keys => some (0 :: keys)
    | .argon _ _ => none
  metadataFromSlice := fun
    | 0 :: keys => some (.raw keys)
    | _ => none
  metadataFromSlice_toVec := by
    intro metadata bytes h
    cases metadata with
    | raw keys =>
      cases h
      rfl
    | argon => cases h

/-- Storages in the directory of the id, below the path of the configuration. -/
def pathEnvironment : Environment where
  types := ⟨{"default"}, fun _ config _ => .ok [config.storageConfig.getD "wallet", config.id]⟩
  crates := Wallet.packedCrates Wallet.shortRecord
  metadataCrates := zeroKeysCrates
  wc := Wallet.paddedCrypto
  overflowChecks := true

/-- A wallet is open under the id, and an import under it is prepared. -/
def openedElsewhere : WalletService pathEnvironment where
  wallets := AList.singleton 1 ⟨"w", ["wallet", "w"], Wallet.zeroKeys⟩
  pendingForImport := AList.singleton 2
    ⟨⟨[], .raw Wallet.rawPassphrase, Wallet.zeroNonce, 1024, []⟩, .raw Wallet.rawPassphrase⟩

/-- Under another path the storage is created, and it stays when the id turns out to be open. -/
theorem created_under_open_id :
    ¬ openedElsewhere.ImportAtomic 2 ⟨"w", none, some "other"⟩ {} Wallet.zeroKey Wallet.zeroKey
      ⟨Wallet.zeroKeys, Wallet.zeroNonce, fun _ => Wallet.zeroRandomness⟩ {} := by
  have hprepare : @WalletService.prepareStorage pathEnvironment ⟨"w", none, some "other"⟩ {}
      (.raw Wallet.rawPassphrase) Wallet.zeroKey
      ⟨Wallet.zeroKeys, Wallet.zeroNonce, fun _ => Wallet.zeroRandomness⟩ =
        .ok (["other", "w"], 0 :: Wallet.encryptAsNotSearchable Wallet.paddedCrypto
          (List.replicate 224 0) Wallet.zeroKey Wallet.zeroNonce) := by
    decide +kernel
  rw [WalletService.importAtomic_iff_of_created rfl hprepare rfl rfl]
  rintro ⟨hfree, -⟩
  revert hfree
  decide

end IndySdk.Imports
