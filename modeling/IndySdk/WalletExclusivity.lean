import IndySdk.WalletHandles

/-!
# One handle for a wallet

No two open wallets should have one id, and the storage of an open wallet should stay. Both are
checked before the keys are derived and not again when they are there. Importing is safe: it deletes
only the storage it has created itself in the same call.
-/

namespace IndySdk.Wallets

open Outcome Finset

variable (types : StorageTypes)

namespace WalletService

variable (s : WalletService)

/-- The id of the wallet that a handle stands for. -/
def ids (handle : ℤ) : Option String := (s.wallets.lookup handle).map OpenWallet.id

/-- Every open wallet whose storage exists keeps it. -/
def Kept (s' : WalletService) : Prop :=
  ∀ wallet ∈ s.wallets.values, wallet.storage ∈ s.storages → wallet.storage ∈ s'.storages

/-- When the keys open the wallet, no other open wallet has its id by now. -/
def OpenGuarded (walletHandle : ℤ) (rekey : Bool) (answers : Answers) : Prop :=
  ∀ pending, s.pendingForOpen.lookup walletHandle = some pending →
    restoreKeys (rekey && pending.rekey) answers = .ok () →
    ∀ other, s.ids other = some pending.id → other = walletHandle

/-- When the keys open the metadata and the storage can be deleted, no wallet is open on it. -/
def DeleteGuarded (config : Config) (answers : Answers) : Prop :=
  restoreKeys false answers = .ok () → answers.deleteStorage = none →
    ∀ storage, getStorageLocation types config = .ok storage → storage ∈ s.storages →
      ∀ wallet ∈ s.wallets.values, wallet.storage ≠ storage

end WalletService

namespace Executor

variable (s : Executor)

structure Sound (command : Command) : Prop where
  exclusive : Occupancy.Exclusive (command.execute types s).2.walletService.ids
  kept : s.walletService.Kept (command.execute types s).2.walletService

/-- What the continuations of opening and deleting would have to check again. -/
def Guarded : Command → Prop
  | .keysDerived job none answers =>
    match s.jobs[job]? with
    | some (.opening walletHandle rekey) =>
      (s.openCallbacks.lookup walletHandle).isSome →
        s.walletService.OpenGuarded walletHandle rekey answers
    | some (.delete config cbId) =>
      (s.pendingCallbacks.lookup cbId).isSome → s.walletService.DeleteGuarded types config answers
    | _ => True
  | _ => True

end Executor

/-! ### The calls of the service -/

namespace WalletService

variable {types} {s s' : WalletService} {config : Config} {answers : Answers}

theorem Kept.of_subset (h : s.storages ⊆ s'.storages) : s.Kept s' :=
  fun _ _ hstorage => h hstorage

theorem createWallet_eq_ok (h : s.createWallet types config answers = .ok s') :
    ∃ storage, getStorageLocation types config = .ok storage ∧ storage ∉ s.storages ∧
      s' = { s with storages := insert storage s.storages } := by
  unfold createWallet at h
  obtain ⟨_, _, h⟩ := bind_eq_ok_iff.mp h
  obtain ⟨storage, hstorage, h⟩ := bind_eq_ok_iff.mp h
  obtain ⟨_, _, h⟩ := bind_eq_ok_iff.mp h
  obtain ⟨_, hcreate, h⟩ := bind_eq_ok_iff.mp h
  cases h
  refine ⟨storage, hstorage, ?_, rfl⟩
  intro hmem
  rw [createStorageAt, if_pos hmem] at hcreate
  cases hcreate

theorem deleteWalletContinue_eq_ok_iff :
    s.deleteWalletContinue types config answers = .ok s' ↔
      restoreKeys false answers = .ok () ∧ answers.deleteStorage = none ∧
        ∃ storage, getStorageLocation types config = .ok storage ∧ storage ∈ s.storages ∧
          s' = { s with storages := s.storages.erase storage } := by
  unfold deleteWalletContinue
  constructor
  · intro h
    obtain ⟨_, hkeys, h⟩ := bind_eq_ok_iff.mp h
    obtain ⟨storage, hstorage, h⟩ := bind_eq_ok_iff.mp h
    obtain ⟨_, hdelete, h⟩ := bind_eq_ok_iff.mp h
    cases h
    by_cases hmem : storage ∈ s.storages
    · rw [deleteStorageAt, if_pos hmem, attempt_eq_ok] at hdelete
      exact ⟨hkeys, hdelete, storage, hstorage, hmem, rfl⟩
    · rw [deleteStorageAt, if_neg hmem] at hdelete
      cases hdelete
  · rintro ⟨hkeys, hdelete, storage, hstorage, hmem, rfl⟩
    rw [hkeys, ok_bind, hstorage, ok_bind, deleteStorageAt, if_pos hmem,
      hdelete]
    rfl

theorem deleteWalletContinue_kept_iff :
    (∀ s', s.deleteWalletContinue types config answers = .ok s' → s.Kept s') ↔
      s.DeleteGuarded types config answers := by
  constructor
  · intro h hkeys hdelete storage hstorage hmem wallet hwallet he
    have hkept := h _
      (deleteWalletContinue_eq_ok_iff.mpr ⟨hkeys, hdelete, storage, hstorage, hmem, rfl⟩)
    have hgone := hkept wallet hwallet (he ▸ hmem)
    rw [he] at hgone
    exact notMem_erase _ _ hgone
  · intro h s' hs'
    obtain ⟨hkeys, hdelete, storage, hstorage, hmem, rfl⟩ := deleteWalletContinue_eq_ok_iff.mp hs'
    intro wallet hwallet hexists
    exact mem_erase.mpr ⟨h hkeys hdelete storage hstorage hmem wallet hwallet, hexists⟩

theorem importWalletContinue_wallets (walletHandle : ℤ) (config : Config) (answers : Answers) :
    (s.importWalletContinue types walletHandle config answers).2.wallets = s.wallets := by
  unfold importWalletContinue
  split
  · dsimp only
    split
    · rfl
    · rfl
    · rename_i created hcreated
      obtain ⟨storage, _, _, rfl⟩ := createWallet_eq_ok hcreated
      split
      · rfl
      · rfl
      · rfl
      · split
        · rfl
        · rfl
        · rename_i s' hs'
          obtain ⟨_, _, hs'⟩ := bind_eq_ok_iff.mp hs'
          obtain ⟨_, _, _, _, _, rfl⟩ := deleteWalletContinue_eq_ok_iff.mp hs'
          rfl
  · rfl

theorem importWalletContinue_storages (walletHandle : ℤ) (config : Config) (answers : Answers) :
    s.storages ⊆ (s.importWalletContinue types walletHandle config answers).2.storages := by
  unfold importWalletContinue
  split
  · dsimp only
    split
    · exact subset_rfl
    · exact subset_rfl
    · rename_i created hcreated
      obtain ⟨storage, hstorage, hnew, rfl⟩ := createWallet_eq_ok hcreated
      split
      · exact subset_insert _ _
      · exact subset_insert _ _
      · exact subset_insert _ _
      · split
        · exact subset_insert _ _
        · exact subset_insert _ _
        · rename_i s' hs'
          obtain ⟨_, _, hs'⟩ := bind_eq_ok_iff.mp hs'
          obtain ⟨_, _, other, hother, _, rfl⟩ := deleteWalletContinue_eq_ok_iff.mp hs'
          rw [hstorage] at hother
          cases hother
          dsimp only
          rw [erase_insert hnew]
  · exact subset_rfl

theorem exclusive_openWalletContinue_iff (hs : Occupancy.Exclusive s.ids) (walletHandle : ℤ)
    (rekey : Bool) (answers : Answers) :
    Occupancy.Exclusive (s.openWalletContinue walletHandle rekey answers).2.ids ↔
      s.OpenGuarded walletHandle rekey answers := by
  unfold openWalletContinue OpenGuarded
  cases hpending : s.pendingForOpen.lookup walletHandle with
  | none => exact iff_of_true hs (fun pending h => by cases h)
  | some pending =>
    dsimp only
    cases hkeys : restoreKeys (rekey && pending.rekey) answers with
    | err e =>
      refine iff_of_true hs ?_
      intro other hother hok
      cases hother
      rw [hkeys] at hok
      cases hok
    | panic =>
      refine iff_of_true hs ?_
      intro other hother hok
      cases hother
      rw [hkeys] at hok
      cases hok
    | ok u =>
      have hids : ids { s with
          pendingForOpen := s.pendingForOpen.erase walletHandle
          wallets := s.wallets.insert walletHandle ⟨pending.id, pending.storage⟩ } =
          Function.update s.ids walletHandle (some pending.id) := by
        funext handle
        by_cases h : handle = walletHandle
        · rw [h, Function.update_self, ids, AList.lookup_insert]
          rfl
        · rw [Function.update_of_ne h, ids, AList.lookup_insert_ne h]
          rfl
      dsimp only
      rw [hids, hs.fill_iff]
      constructor
      · intro h other hother _
        cases hother
        exact h
      · exact fun h => h pending rfl hkeys

theorem exclusive_closeWallet (hs : Occupancy.Exclusive s.ids) (handle : ℤ) (answers : Answers) :
    Occupancy.Exclusive (s.closeWallet handle answers).2.ids := by
  unfold closeWallet
  split
  · have hids : ids { s with wallets := s.wallets.erase handle } =
        Function.update s.ids handle none := by
      funext other
      by_cases h : other = handle
      · rw [h, Function.update_self, ids, AList.lookup_erase]
        rfl
      · rw [Function.update_of_ne h, ids, AList.lookup_erase_ne h]
        rfl
    dsimp only
    rw [hids]
    exact hs.empty handle
  · exact hs

/-- The open wallets and the existing storages are left alone. -/
structure Framed (s s' : WalletService) : Prop where
  wallets : s'.wallets = s.wallets
  storages : s.storages ⊆ s'.storages

theorem Framed.of_eq (h : s' = s) : s.Framed s' := ⟨by rw [h], by rw [h]⟩

theorem Framed.sound (h : s.Framed s') (hs : Occupancy.Exclusive s.ids) :
    Occupancy.Exclusive s'.ids ∧ s.Kept s' := by
  refine ⟨?_, Kept.of_subset h.storages⟩
  have hids : s'.ids = s.ids := by
    unfold ids
    rw [h.wallets]
  rw [hids]
  exact hs

theorem createWallet_framed (h : s.createWallet types config answers = .ok s') : s.Framed s' := by
  obtain ⟨storage, _, _, rfl⟩ := createWallet_eq_ok h
  exact ⟨rfl, subset_insert _ _⟩

theorem openWalletPrepare_framed {rekey : Bool} {walletHandle : ℤ}
    (h : s.openWalletPrepare types config rekey walletHandle answers = .ok s') : s.Framed s' := by
  obtain ⟨_, _, h⟩ := bind_eq_ok_iff.mp h
  obtain ⟨storage, _, h⟩ := bind_eq_ok_iff.mp h
  cases h
  exact ⟨rfl, subset_rfl⟩

theorem importWalletPrepare_framed {walletHandle : ℤ}
    (h : s.importWalletPrepare walletHandle answers = .ok s') : s.Framed s' := by
  obtain ⟨_, _, h⟩ := bind_eq_ok_iff.mp h
  obtain ⟨_, _, h⟩ := bind_eq_ok_iff.mp h
  cases h
  exact ⟨rfl, subset_rfl⟩

theorem importWalletContinue_framed (walletHandle : ℤ) (config : Config) (answers : Answers) :
    s.Framed (s.importWalletContinue types walletHandle config answers).2 :=
  ⟨importWalletContinue_wallets walletHandle config answers,
    importWalletContinue_storages walletHandle config answers⟩

theorem openWalletContinue_storages (walletHandle : ℤ) (rekey : Bool) (answers : Answers) :
    (s.openWalletContinue walletHandle rekey answers).2.storages = s.storages := by
  unfold openWalletContinue
  split
  · rfl
  · dsimp only
    split
    · rfl
    · rfl
    · rfl

theorem closeWallet_storages (handle : ℤ) (answers : Answers) :
    (s.closeWallet handle answers).2.storages = s.storages := by
  unfold closeWallet
  split
  · rfl
  · rfl

end WalletService

/-! ### The commands -/

namespace Executor

variable {types} {s : Executor}

theorem getCb_eq_none {cbId : ℤ} : s.getCb cbId = none ↔ s.pendingCallbacks.lookup cbId = none :=
  Option.map_eq_none_iff

theorem getCb_eq_some {cbId : ℤ} {cb : ℕ} {s' : Executor} (h : s.getCb cbId = some (cb, s')) :
    (s.pendingCallbacks.lookup cbId).isSome ∧ s'.walletService = s.walletService := by
  obtain ⟨cb', hlookup, h⟩ := Option.map_eq_some_iff.mp h
  cases h
  exact ⟨by rw [hlookup]; rfl, rfl⟩

theorem openContinue_sound_iff (hs : Occupancy.Exclusive s.walletService.ids) (walletHandle : ℤ)
    (rekey : Bool) (keyResult : Option IndyError) (answers : Answers) :
    (Occupancy.Exclusive (s.openContinue walletHandle rekey keyResult answers).2.walletService.ids ∧
      s.walletService.Kept (s.openContinue walletHandle rekey keyResult answers).2.walletService) ↔
    (keyResult = none → (s.openCallbacks.lookup walletHandle).isSome →
      s.walletService.OpenGuarded walletHandle rekey answers) := by
  have hframed := (WalletService.Framed.of_eq (s := s.walletService) rfl).sound hs
  unfold openContinue
  cases s.openCallbacks.lookup walletHandle with
  | none => exact iff_of_true hframed (fun _ h => by cases h)
  | some cb =>
    cases keyResult with
    | some e => exact iff_of_true hframed (fun h => by cases h)
    | none =>
      have hexclusive := WalletService.exclusive_openWalletContinue_iff hs walletHandle
        rekey answers
      have hkept : s.walletService.Kept
          (s.walletService.openWalletContinue walletHandle rekey answers).2 :=
        WalletService.Kept.of_subset
          (WalletService.openWalletContinue_storages walletHandle rekey answers).ge
      exact ⟨fun h _ _ => hexclusive.mp h.1, fun h => ⟨hexclusive.mpr (h rfl rfl), hkept⟩⟩

theorem deleteContinue_sound_iff (hs : Occupancy.Exclusive s.walletService.ids) (cbId : ℤ)
    (config : Config) (keyResult : Option IndyError) (answers : Answers) :
    (Occupancy.Exclusive (s.deleteContinue types cbId config keyResult
      answers).2.walletService.ids ∧
      s.walletService.Kept
        (s.deleteContinue types cbId config keyResult answers).2.walletService) ↔
    (keyResult = none → (s.pendingCallbacks.lookup cbId).isSome →
      s.walletService.DeleteGuarded types config answers) := by
  have hframed : ∀ {s' : WalletService}, s' = s.walletService →
      Occupancy.Exclusive s'.ids ∧ s.walletService.Kept s' :=
    fun h => (WalletService.Framed.of_eq h).sound hs
  unfold deleteContinue
  cases hcb : s.getCb cbId with
  | none =>
    rw [getCb_eq_none.mp hcb]
    exact iff_of_true (hframed rfl) (fun _ h => by cases h)
  | some p =>
    obtain ⟨cb, s'⟩ := p
    obtain ⟨hsome, hservice⟩ := getCb_eq_some hcb
    cases keyResult with
    | some e => exact iff_of_true (hframed hservice) (fun h => by cases h)
    | none =>
      rw [← WalletService.deleteWalletContinue_kept_iff]
      dsimp only [finish]
      rw [hservice]
      cases hdelete : s.walletService.deleteWalletContinue types config answers with
      | err e => exact iff_of_true (hframed hservice) (fun _ _ s' h => by cases h)
      | panic => exact iff_of_true (hframed hservice) (fun _ _ s' h => by cases h)
      | ok deleted =>
        have hids : deleted.ids = s.walletService.ids := by
          obtain ⟨_, _, _, _, _, rfl⟩ := WalletService.deleteWalletContinue_eq_ok_iff.mp hdelete
          rfl
        constructor
        · intro h _ _ other hother
          cases hother
          exact h.2
        · exact fun h => ⟨by dsimp only; rw [hids]; exact hs, h rfl hsome deleted rfl⟩

theorem createContinue_framed (cbId : ℤ) (config : Config) (keyResult : Option IndyError)
    (answers : Answers) : s.walletService.Framed
      (s.createContinue types cbId config keyResult answers).2.walletService := by
  unfold createContinue
  cases hcb : s.getCb cbId with
  | none => exact WalletService.Framed.of_eq rfl
  | some p =>
    obtain ⟨cb, s'⟩ := p
    obtain ⟨_, hservice⟩ := getCb_eq_some hcb
    cases keyResult with
    | some e => exact WalletService.Framed.of_eq hservice
    | none =>
      dsimp only [finish]
      rw [hservice]
      cases hcreate : s.walletService.createWallet types config answers with
      | err e => exact WalletService.Framed.of_eq hservice
      | panic => exact WalletService.Framed.of_eq hservice
      | ok created => exact WalletService.createWallet_framed hcreate

theorem importContinue_framed (cbId walletHandle : ℤ) (config : Config)
    (keyResult : Option IndyError) (answers : Answers) : s.walletService.Framed
      (s.importContinue types cbId walletHandle config keyResult answers).2.walletService := by
  unfold importContinue
  cases hcb : s.getCb cbId with
  | none => exact WalletService.Framed.of_eq rfl
  | some p =>
    obtain ⟨cb, s'⟩ := p
    obtain ⟨_, hservice⟩ := getCb_eq_some hcb
    cases keyResult with
    | some e => exact WalletService.Framed.of_eq hservice
    | none =>
      dsimp only
      rw [hservice]
      exact WalletService.importWalletContinue_framed walletHandle config answers

theorem openWallet_framed (config : Config) (rekey : Bool) (walletHandle : ℤ) (answers : Answers)
    (cb : ℕ) : s.walletService.Framed
      (s.openWallet types config rekey walletHandle answers cb).2.walletService := by
  unfold openWallet
  split
  · exact WalletService.Framed.of_eq rfl
  · exact WalletService.Framed.of_eq rfl
  · rename_i walletService hprepare
    exact WalletService.openWalletPrepare_framed hprepare

theorem delete_framed (config : Config) (cbId : ℤ) (answers : Answers) (cb : ℕ) :
    s.walletService.Framed (s.delete types config cbId answers cb).2.walletService := by
  unfold delete
  split
  · exact WalletService.Framed.of_eq rfl
  · exact WalletService.Framed.of_eq rfl
  · exact WalletService.Framed.of_eq rfl

theorem importWallet_framed (config : Config) (walletHandle cbId : ℤ) (answers : Answers)
    (cb : ℕ) : s.walletService.Framed
      (s.importWallet config walletHandle cbId answers cb).2.walletService := by
  unfold importWallet
  split
  · exact WalletService.Framed.of_eq rfl
  · exact WalletService.Framed.of_eq rfl
  · rename_i walletService hprepare
    exact WalletService.importWalletPrepare_framed hprepare

theorem sound_of_framed (hs : Occupancy.Exclusive s.walletService.ids) {command : Command}
    (h : s.walletService.Framed (command.execute types s).2.walletService) :
    s.Sound types command :=
  ⟨(h.sound hs).1, (h.sound hs).2⟩

theorem keysDerived_sound_iff (hs : Occupancy.Exclusive s.walletService.ids) (job : ℕ)
    (keyResult : Option IndyError) (answers : Answers) :
    s.Sound types (.keysDerived job keyResult answers) ↔
      s.Guarded types (.keysDerived job keyResult answers) := by
  have hnone : s.Guarded types (.keysDerived job keyResult answers) ↔
      (keyResult = none → match s.jobs[job]? with
        | some (.opening walletHandle rekey) =>
          (s.openCallbacks.lookup walletHandle).isSome →
            s.walletService.OpenGuarded walletHandle rekey answers
        | some (.delete config cbId) =>
          (s.pendingCallbacks.lookup cbId).isSome →
            s.walletService.DeleteGuarded types config answers
        | _ => True) := by
    cases keyResult with
    | none => exact ⟨fun h _ => h, fun h => h rfl⟩
    | some e => exact iff_of_true trivial (fun h => by cases h)
  have hsplit : s.Sound types (.keysDerived job keyResult answers) ↔
      Occupancy.Exclusive (s.keysDerived types job keyResult answers).2.walletService.ids ∧
        s.walletService.Kept (s.keysDerived types job keyResult answers).2.walletService :=
    ⟨fun h => ⟨h.exclusive, h.kept⟩, fun h => ⟨h.1, h.2⟩⟩
  rw [hnone, hsplit]
  let rest : Executor := { s with jobs := s.jobs.eraseIdx job }
  unfold keysDerived
  cases s.jobs[job]? with
  | none => exact iff_of_true ((WalletService.Framed.of_eq rfl).sound hs) (fun _ => trivial)
  | some waiting =>
    cases waiting with
    | create config cbId =>
      exact iff_of_true
        ((createContinue_framed (s := rest) cbId config keyResult answers).sound hs)
        (fun _ => trivial)
    | opening walletHandle rekey =>
      exact openContinue_sound_iff (s := rest) hs walletHandle rekey keyResult answers
    | delete config cbId =>
      exact deleteContinue_sound_iff (s := rest) hs cbId config keyResult answers
    | importing config walletHandle cbId =>
      exact iff_of_true
        ((importContinue_framed (s := rest) cbId walletHandle config keyResult answers).sound hs)
        (fun _ => trivial)

theorem sound_iff_guarded (hs : Occupancy.Exclusive s.walletService.ids) (command : Command) :
    s.Sound types command ↔ s.Guarded types command := by
  cases command with
  | create config cbId cb => exact iff_of_true (sound_of_framed hs (.of_eq rfl)) trivial
  | openWallet config rekey walletHandle answers cb =>
    exact iff_of_true (sound_of_framed hs (openWallet_framed ..)) trivial
  | close walletHandle answers cb =>
    refine iff_of_true ⟨WalletService.exclusive_closeWallet hs walletHandle answers, ?_⟩ trivial
    exact WalletService.Kept.of_subset
      (WalletService.closeWallet_storages walletHandle answers).ge
  | delete config cbId answers cb =>
    exact iff_of_true (sound_of_framed hs (delete_framed ..)) trivial
  | importWallet config walletHandle cbId answers cb =>
    exact iff_of_true (sound_of_framed hs (importWallet_framed ..)) trivial
  | keysDerived job keyResult answers => exact keysDerived_sound_iff hs job keyResult answers

end Executor

/-! ### Runs of the executor -/

theorem wallet_runs_sound_iff (storages : Finset String) (commands : List Command) :
    (walletExecutor types).Along (Executor.Sound types) { walletService := { storages } } commands ↔
      (walletExecutor types).Along (Executor.Guarded types) { walletService := { storages } }
        commands := by
  refine Machine.along_iff_of_kept
    (fun s command hs => Executor.sound_iff_guarded hs command) ?_ commands
    Occupancy.exclusive_none
  intro s command hs hguarded
  exact ((Executor.sound_iff_guarded hs command).mpr hguarded).exclusive

/-- The default storage type, one directory for each id. -/
def defaultTypes : StorageTypes := ⟨{"default"}, fun _ config => config.id⟩

def myWallet : Config := ⟨"wallet", none, none⟩

/-- One wallet opened twice, and a wallet deleted after it was opened; each is prepared while the
wallet is closed. -/
theorem prepared_while_closed :
    ¬ (walletExecutor defaultTypes).Along (Executor.Sound defaultTypes)
        { walletService := { storages := {"wallet"} } }
        [.openWallet myWallet false 1 {} 0, .openWallet myWallet false 2 {} 1,
          .keysDerived 0 none {}, .keysDerived 0 none {}] ∧
      ¬ (walletExecutor defaultTypes).Along (Executor.Sound defaultTypes)
        { walletService := { storages := {"wallet"} } }
        [.delete myWallet 1 {} 0, .openWallet myWallet false 2 {} 1,
          .keysDerived 1 none {}, .keysDerived 0 none {}] := by
  refine ⟨?_, ?_⟩
  · rintro ⟨-, -, -, hopen, -⟩
    have hsame := hopen.exclusive 1 2 "wallet" (by decide +kernel) (by decide +kernel)
    cases hsame
  · rintro ⟨-, -, -, hdelete, -⟩
    have hkept := hdelete.kept ⟨"wallet", "wallet"⟩
      (AssocMap.mem_values.mpr ⟨2, by decide +kernel⟩) (by decide +kernel)
    exact absurd hkept (by decide +kernel)

end IndySdk.Wallets
