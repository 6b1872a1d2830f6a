import IndySdk.Obligations
import IndySdk.WalletExclusivity

/-!
# Wallets that wait for their keys

A command that opens or imports a wallet leaves an entry with the service and a callback with the
executor, and its continuation is to take out both. The callback is always taken out; the entry
only when the keys could be derived.
-/

open Outcome List AList

section

variable {α κ : Type} {f : α → Option κ} {l : List α} {held held' : κ → Prop}

/-- The things that are held are those of the list, each once. -/
structure Keyed (f : α → Option κ) (l : List α) (held : κ → Prop) : Prop where
  nodup : (l.filterMap f).Nodup
  held_iff : ∀ k, held k ↔ k ∈ l.filterMap f

theorem Keyed.congr (h : Keyed f l held) (hheld : ∀ k, held' k ↔ held k) : Keyed f l held' :=
  ⟨h.nodup, fun k => (hheld k).trans (h.held_iff k)⟩

theorem Keyed.append_none {a : α} (h : Keyed f l held) (ha : f a = none) :
    Keyed f (l ++ [a]) held := by
  have hsame : (l ++ [a]).filterMap f = l.filterMap f := by
    rw [filterMap_append, filterMap_cons_none ha, filterMap_nil, append_nil]
  refine ⟨?_, fun k => ?_⟩
  · rw [hsame]
    exact h.nodup
  · rw [hsame]
    exact h.held_iff k

theorem Keyed.append_some {a : α} {k : κ} (h : Keyed f l held) (ha : f a = some k)
    (hnew : k ∉ l.filterMap f) (hheld : ∀ k', held' k' ↔ k' = k ∨ held k') :
    Keyed f (l ++ [a]) held' := by
  have hmore : (l ++ [a]).filterMap f = l.filterMap f ++ [k] := by
    rw [filterMap_append, filterMap_cons_some ha, filterMap_nil]
  refine ⟨?_, fun k' => ?_⟩
  · rw [hmore]
    exact nodup_append.mpr ⟨h.nodup, nodup_singleton k, by
      intro k' hk' other hother
      rw [mem_singleton.mp hother]
      rintro rfl
      exact hnew hk'⟩
  · rw [hmore, mem_append, mem_singleton, hheld, h.held_iff, or_comm]

theorem filterMap_perm {i : ℕ} {a : α} (ha : l[i]? = some a) :
    (l.filterMap f).Perm ((f a).toList ++ (l.eraseIdx i).filterMap f) := by
  obtain ⟨before, rest, hl, herase⟩ := Machine.split_at ha
  rw [herase, hl, filterMap_append, filterMap_append]
  cases hf : f a with
  | none =>
    rw [filterMap_cons_none hf]
    exact List.Perm.refl _
  | some k =>
    rw [filterMap_cons_some hf]
    exact perm_middle

theorem Keyed.erase_none {i : ℕ} {a : α} (h : Keyed f l held) (ha : l[i]? = some a)
    (hf : f a = none) : Keyed f (l.eraseIdx i) held := by
  have hperm := @filterMap_perm α κ f l i a ha
  rw [hf] at hperm
  exact ⟨hperm.nodup_iff.mp h.nodup, fun k => (h.held_iff k).trans hperm.mem_iff⟩

theorem Keyed.erase_some {i : ℕ} {a : α} {k : κ} (h : Keyed f l held) (ha : l[i]? = some a)
    (hf : f a = some k) (hheld : ∀ k', held' k' ↔ k' ≠ k ∧ held k') :
    Keyed f (l.eraseIdx i) held' := by
  have hperm := @filterMap_perm α κ f l i a ha
  rw [hf] at hperm
  have hnodup := hperm.nodup_iff.mp h.nodup
  obtain ⟨hnot, hrest⟩ := nodup_cons.mp hnodup
  refine ⟨hrest, fun k' => ?_⟩
  have hmem : k' ∈ l.filterMap f ↔ k' = k ∨ k' ∈ (l.eraseIdx i).filterMap f :=
    hperm.mem_iff.trans mem_cons
  rw [hheld, h.held_iff, hmem]
  constructor
  · rintro ⟨hne, heq | hmem⟩
    · exact absurd heq hne
    · exact hmem
  · intro hmem
    exact ⟨fun heq => hnot (heq ▸ hmem), .inr hmem⟩

end

namespace IndySdk.Wallets

variable (types : StorageTypes)

/-! ### What waits -/

namespace Job

def openHandle : Job → Option ℤ
  | .opening walletHandle _ => some walletHandle
  | _ => none

def importHandle : Job → Option ℤ
  | .importing _ walletHandle _ => some walletHandle
  | _ => none

def cbId : Job → Option ℤ
  | .create _ cbId => some cbId
  | .delete _ cbId => some cbId
  | .importing _ _ cbId => some cbId
  | .opening _ _ => none

/-- The numbers that a waiting command was given. -/
def numbers : Job → List ℤ
  | .create _ cbId => [cbId]
  | .opening walletHandle _ => [walletHandle]
  | .delete _ cbId => [cbId]
  | .importing _ walletHandle cbId => [walletHandle, cbId]

end Job

/-- The numbers that a command draws. -/
def Command.numbers : Command → List ℤ
  | .create _ cbId _ => [cbId]
  | .openWallet _ _ walletHandle _ _ => [walletHandle]
  | .delete _ cbId _ _ => [cbId]
  | .importWallet _ walletHandle cbId _ _ => [walletHandle, cbId]
  | _ => []

namespace Executor

variable (s : Executor)

/-- No command that waits has a number that is drawn. -/
def Fresh (command : Command) : Prop :=
  ∀ n ∈ command.numbers, ∀ job ∈ s.jobs, n ∉ job.numbers

/-- An import with this handle waits for its keys, and its callback is outstanding. -/
def AwaitsImport (walletHandle : ℤ) : Prop :=
  ∃ config cbId, Job.importing config walletHandle cbId ∈ s.jobs ∧ cbId ∈ s.pendingCallbacks

/-- The entries of the service are those of the outstanding callbacks. -/
structure PendingExact : Prop where
  opening : ∀ walletHandle,
    walletHandle ∈ s.walletService.pendingForOpen ↔ walletHandle ∈ s.openCallbacks
  importing : ∀ walletHandle,
    walletHandle ∈ s.walletService.pendingForImport ↔ s.AwaitsImport walletHandle

/-- The derivation of keys for an opening or an import has not failed. -/
def KeysHeld : Command → Prop
  | .keysDerived job (some _) _ =>
    ∀ waiting, s.jobs[job]? = some waiting →
      waiting.openHandle = none ∧ waiting.importHandle = none
  | _ => True

/-- The callbacks are those of the commands that wait. -/
structure CallbacksKept : Prop where
  opening : Keyed Job.openHandle s.jobs (· ∈ s.openCallbacks)
  others : Keyed Job.cbId s.jobs (· ∈ s.pendingCallbacks)
  imports : (s.jobs.filterMap Job.importHandle).Nodup

variable {types} {s}

theorem CallbacksKept.awaitsImport_iff (h : s.CallbacksKept) (walletHandle : ℤ) :
    s.AwaitsImport walletHandle ↔ walletHandle ∈ s.jobs.filterMap Job.importHandle := by
  rw [mem_filterMap]
  constructor
  · rintro ⟨config, cbId, hjob, -⟩
    exact ⟨_, hjob, rfl⟩
  · rintro ⟨job, hjob, hhandle⟩
    cases job with
    | importing config other cbId =>
      cases hhandle
      exact ⟨config, cbId, hjob, (h.others.held_iff cbId).mpr
        (mem_filterMap.mpr ⟨_, hjob, rfl⟩)⟩
    | create config cbId => cases hhandle
    | opening other rekey => cases hhandle
    | delete config cbId => cases hhandle

theorem CallbacksKept.pendingExact_iff (h : s.CallbacksKept) :
    s.PendingExact ↔
      Keyed Job.openHandle s.jobs (· ∈ s.walletService.pendingForOpen) ∧
      Keyed Job.importHandle s.jobs (· ∈ s.walletService.pendingForImport) := by
  constructor
  · rintro ⟨hopening, himporting⟩
    refine ⟨h.opening.congr hopening, h.imports, fun walletHandle => ?_⟩
    exact (himporting walletHandle).trans (h.awaitsImport_iff walletHandle)
  · rintro ⟨hopening, himporting⟩
    refine ⟨fun walletHandle => ?_, fun walletHandle => ?_⟩
    · rw [hopening.held_iff, h.opening.held_iff]
    · rw [himporting.held_iff, h.awaitsImport_iff]

end Executor

/-! ### The calls of the service -/

namespace WalletService

variable {types} {s s' : WalletService}

/-- The waiting entries are left alone. -/
def SamePending (s s' : WalletService) : Prop :=
  s'.pendingForOpen = s.pendingForOpen ∧ s'.pendingForImport = s.pendingForImport

variable {config : Config} {answers : Answers}

theorem createWallet_samePending (h : s.createWallet types config answers = .ok s') :
    s.SamePending s' := by
  obtain ⟨storage, _, _, rfl⟩ := createWallet_eq_ok h
  exact ⟨rfl, rfl⟩

theorem deleteWalletContinue_samePending
    (h : s.deleteWalletContinue types config answers = .ok s') : s.SamePending s' := by
  obtain ⟨_, _, _, _, _, rfl⟩ := deleteWalletContinue_eq_ok_iff.mp h
  exact ⟨rfl, rfl⟩

theorem closeWallet_samePending (handle : ℤ) (answers : Answers) :
    s.SamePending (s.closeWallet handle answers).2 := by
  unfold closeWallet
  split
  · exact ⟨rfl, rfl⟩
  · exact ⟨rfl, rfl⟩

theorem openWalletPrepare_pending {rekey : Bool} {walletHandle : ℤ}
    (h : s.openWalletPrepare types config rekey walletHandle answers = .ok s') :
    (∀ n, n ∈ s'.pendingForOpen ↔ n = walletHandle ∨ n ∈ s.pendingForOpen) ∧
      s'.pendingForImport = s.pendingForImport := by
  obtain ⟨_, _, h⟩ := bind_eq_ok_iff.mp h
  obtain ⟨storage, _, h⟩ := bind_eq_ok_iff.mp h
  cases h
  exact ⟨fun n => mem_insert _, rfl⟩

theorem importWalletPrepare_pending {walletHandle : ℤ}
    (h : s.importWalletPrepare walletHandle answers = .ok s') :
    (∀ n, n ∈ s'.pendingForImport ↔ n = walletHandle ∨ n ∈ s.pendingForImport) ∧
      s'.pendingForOpen = s.pendingForOpen := by
  obtain ⟨_, _, h⟩ := bind_eq_ok_iff.mp h
  obtain ⟨_, _, h⟩ := bind_eq_ok_iff.mp h
  cases h
  exact ⟨fun n => Finset.mem_insert, rfl⟩

theorem openWalletContinue_pending (walletHandle : ℤ) (rekey : Bool) (answers : Answers) :
    (∀ n, n ∈ (s.openWalletContinue walletHandle rekey answers).2.pendingForOpen ↔
      n ≠ walletHandle ∧ n ∈ s.pendingForOpen) ∧
      (s.openWalletContinue walletHandle rekey answers).2.pendingForImport =
        s.pendingForImport := by
  unfold openWalletContinue
  cases hpending : s.pendingForOpen.lookup walletHandle with
  | none =>
    refine ⟨fun n => ?_, rfl⟩
    rw [and_iff_right_of_imp]
    rintro hmem rfl
    exact lookup_eq_none.mp hpending hmem
  | some pending =>
    dsimp only
    split
    · exact ⟨fun n => mem_erase, rfl⟩
    · exact ⟨fun n => mem_erase, rfl⟩
    · exact ⟨fun n => mem_erase, rfl⟩

theorem importWalletContinue_pending (walletHandle : ℤ) (config : Config) (answers : Answers) :
    (s.importWalletContinue types walletHandle config answers).2.pendingForOpen =
      s.pendingForOpen ∧
    ∀ n, n ∈ (s.importWalletContinue types walletHandle config answers).2.pendingForImport ↔
      n ≠ walletHandle ∧ n ∈ s.pendingForImport := by
  unfold importWalletContinue
  split
  · dsimp only
    split
    · exact ⟨rfl, fun n => Finset.mem_erase⟩
    · exact ⟨rfl, fun n => Finset.mem_erase⟩
    · rename_i created hcreated
      obtain ⟨hopen, himport⟩ := createWallet_samePending hcreated
      have hcreated' : created.pendingForOpen = s.pendingForOpen ∧
          ∀ n, n ∈ created.pendingForImport ↔ n ≠ walletHandle ∧ n ∈ s.pendingForImport := by
        refine ⟨hopen, fun n => ?_⟩
        rw [himport]
        exact Finset.mem_erase
      split
      · exact hcreated'
      · exact hcreated'
      · exact hcreated'
      · split
        · exact hcreated'
        · exact hcreated'
        · rename_i s' hs'
          obtain ⟨_, _, hs'⟩ := bind_eq_ok_iff.mp hs'
          obtain ⟨hopen', himport'⟩ := deleteWalletContinue_samePending hs'
          rw [hopen', himport']
          exact hcreated'
  · rename_i hnot
    refine ⟨rfl, fun n => ?_⟩
    rw [and_iff_right_of_imp]
    rintro hmem rfl
    exact hnot hmem

end WalletService

/-! ### The commands -/

namespace Executor

variable {types} {s s' : Executor} {cbId walletHandle : ℤ}

/-- A callback is taken out, and nothing else that waits is changed. -/
structure Released (s s' : Executor) (cbId : ℤ) : Prop where
  opening : s'.openCallbacks = s.openCallbacks
  jobs : s'.jobs = s.jobs
  service : s.walletService.SamePending s'.walletService
  callbacks : ∀ n, n ∈ s'.pendingCallbacks ↔ n ≠ cbId ∧ n ∈ s.pendingCallbacks

theorem getCb_released {cb : ℕ} (h : s.getCb cbId = some (cb, s')) : s.Released s' cbId := by
  obtain ⟨cb', _, h⟩ := Option.map_eq_some_iff.mp h
  cases h
  exact ⟨rfl, rfl, ⟨rfl, rfl⟩, fun n => mem_erase⟩

theorem released_of_getCb_none (h : s.getCb cbId = none) : s.Released s cbId := by
  refine ⟨rfl, rfl, ⟨rfl, rfl⟩, fun n => ?_⟩
  rw [and_iff_right_of_imp]
  rintro hmem rfl
  exact lookup_eq_none.mp (getCb_eq_none.mp h) hmem

theorem Released.finish {next : Executor} (h : s.Released next cbId) (cb : ℕ)
    {result : IndyResult WalletService}
    (hresult : ∀ service, result = .ok service → next.walletService.SamePending service) :
    s.Released (next.finish cb result).2 cbId := by
  cases result with
  | ok service =>
    obtain ⟨hopen, himport⟩ := hresult service rfl
    exact ⟨h.opening, h.jobs, ⟨hopen.trans h.service.1, himport.trans h.service.2⟩, h.callbacks⟩
  | err e => exact h
  | panic => exact h

theorem createContinue_released (config : Config) (keyResult : Option IndyError)
    (answers : Answers) :
    s.Released (s.createContinue types cbId config keyResult answers).2 cbId := by
  unfold createContinue
  cases hcb : s.getCb cbId with
  | none => exact released_of_getCb_none hcb
  | some p =>
    obtain ⟨cb, next⟩ := p
    cases keyResult with
    | some e => exact getCb_released hcb
    | none =>
      exact (getCb_released hcb).finish cb
        (fun service h => WalletService.createWallet_samePending h)

theorem deleteContinue_released (config : Config) (keyResult : Option IndyError)
    (answers : Answers) :
    s.Released (s.deleteContinue types cbId config keyResult answers).2 cbId := by
  unfold deleteContinue
  cases hcb : s.getCb cbId with
  | none => exact released_of_getCb_none hcb
  | some p =>
    obtain ⟨cb, next⟩ := p
    cases keyResult with
    | some e => exact getCb_released hcb
    | none =>
      exact (getCb_released hcb).finish cb
        (fun service h => WalletService.deleteWalletContinue_samePending h)

theorem importContinue_tables (config : Config) (keyResult : Option IndyError) (answers : Answers)
    (h : cbId ∈ s.pendingCallbacks) :
    let s' := (s.importContinue types cbId walletHandle config keyResult answers).2
    s'.openCallbacks = s.openCallbacks ∧ s'.jobs = s.jobs ∧
      (∀ n, n ∈ s'.pendingCallbacks ↔ n ≠ cbId ∧ n ∈ s.pendingCallbacks) ∧
      s'.walletService.pendingForOpen = s.walletService.pendingForOpen ∧
      ∀ n, n ∈ s'.walletService.pendingForImport ↔
        (keyResult = none → n ≠ walletHandle) ∧ n ∈ s.walletService.pendingForImport := by
  obtain ⟨cb, hcb⟩ := Option.isSome_iff_exists.mp (lookup_isSome.mpr h)
  have hget : s.getCb cbId =
      some (cb, { s with pendingCallbacks := s.pendingCallbacks.erase cbId }) := by
    rw [getCb, hcb]
    rfl
  unfold importContinue
  rw [hget]
  cases keyResult with
  | some e =>
    refine ⟨rfl, rfl, fun n => mem_erase, rfl, fun n => ?_⟩
    exact (and_iff_right (fun hnone => by cases hnone)).symm
  | none =>
    obtain ⟨hopen, himport⟩ :=
      @WalletService.importWalletContinue_pending types s.walletService walletHandle config answers
    refine ⟨rfl, rfl, fun n => mem_erase, hopen, fun n => ?_⟩
    rw [forall_prop_of_true rfl]
    exact himport n

theorem openContinue_tables (rekey : Bool) (keyResult : Option IndyError) (answers : Answers)
    (h : walletHandle ∈ s.openCallbacks) :
    let s' := (s.openContinue walletHandle rekey keyResult answers).2
    s'.pendingCallbacks = s.pendingCallbacks ∧ s'.jobs = s.jobs ∧
      (∀ n, n ∈ s'.openCallbacks ↔ n ≠ walletHandle ∧ n ∈ s.openCallbacks) ∧
      s'.walletService.pendingForImport = s.walletService.pendingForImport ∧
      ∀ n, n ∈ s'.walletService.pendingForOpen ↔
        (keyResult = none → n ≠ walletHandle) ∧ n ∈ s.walletService.pendingForOpen := by
  obtain ⟨cb, hcb⟩ := Option.isSome_iff_exists.mp (lookup_isSome.mpr h)
  unfold openContinue
  rw [hcb]
  cases keyResult with
  | some e =>
    refine ⟨rfl, rfl, fun n => mem_erase, rfl, fun n => ?_⟩
    exact (and_iff_right (fun hnone => by cases hnone)).symm
  | none =>
    obtain ⟨hopen, himport⟩ :=
      @WalletService.openWalletContinue_pending s.walletService walletHandle rekey answers
    refine ⟨rfl, rfl, fun n => mem_erase, himport, fun n => ?_⟩
    rw [forall_prop_of_true rfl]
    exact hopen n

/-- The callbacks and the entries are those of the commands that wait. -/
structure AllKept (s : Executor) : Prop where
  opening : Keyed Job.openHandle s.jobs (· ∈ s.openCallbacks)
  others : Keyed Job.cbId s.jobs (· ∈ s.pendingCallbacks)
  pendingOpen : Keyed Job.openHandle s.jobs (· ∈ s.walletService.pendingForOpen)
  pendingImport : Keyed Job.importHandle s.jobs (· ∈ s.walletService.pendingForImport)

theorem AllKept.callbacksKept (h : s.AllKept) : s.CallbacksKept :=
  ⟨h.opening, h.others, h.pendingImport.nodup⟩

theorem AllKept.pendingExact (h : s.AllKept) : s.PendingExact :=
  h.callbacksKept.pendingExact_iff.mpr ⟨h.pendingOpen, h.pendingImport⟩

/-- An executor that has just been started, over the storages that are there. -/
def started (storages : Finset String) : Executor := { walletService := { storages } }

theorem allKept_started (storages : Finset String) : (started storages).AllKept := by
  have hempty : ∀ (f : Job → Option ℤ) (held : ℤ → Prop), (∀ n, ¬ held n) →
      Keyed f ([] : List Job) held :=
    fun f held h => ⟨nodup_nil, fun n => iff_of_false (h n) not_mem_nil⟩
  exact ⟨hempty _ _ (fun n => notMem_empty n), hempty _ _ (fun n => notMem_empty n),
    hempty _ _ (fun n => notMem_empty n), hempty _ _ (fun n => Finset.notMem_empty n)⟩

theorem AllKept.of_same (h : s.AllKept) (hopening : s'.openCallbacks = s.openCallbacks)
    (hcallbacks : s'.pendingCallbacks = s.pendingCallbacks) (hjobs : s'.jobs = s.jobs)
    (hservice : s.walletService.SamePending s'.walletService) : s'.AllKept := by
  obtain ⟨hopen, himport⟩ := hservice
  refine ⟨?_, ?_, ?_, ?_⟩
  · rw [hjobs, hopening]
    exact h.opening
  · rw [hjobs, hcallbacks]
    exact h.others
  · rw [hjobs, hopen]
    exact h.pendingOpen
  · rw [hjobs, himport]
    exact h.pendingImport

theorem notMem_filterMap {f : Job → Option ℤ} (hf : ∀ job n, f job = some n → n ∈ job.numbers)
    {n : ℤ} (h : ∀ job ∈ s.jobs, n ∉ job.numbers) : n ∉ s.jobs.filterMap f := by
  intro hmem
  obtain ⟨job, hjob, hn⟩ := mem_filterMap.mp hmem
  exact h job hjob (hf job n hn)

theorem openHandle_mem (job : Job) (n : ℤ) (h : job.openHandle = some n) : n ∈ job.numbers := by
  cases job with
  | opening other rekey =>
    cases h
    exact mem_singleton.mpr rfl
  | create config other => cases h
  | delete config other => cases h
  | importing config other cbId => cases h

theorem importHandle_mem (job : Job) (n : ℤ) (h : job.importHandle = some n) :
    n ∈ job.numbers := by
  cases job with
  | importing config other cbId =>
    cases h
    exact mem_cons_self
  | opening other rekey => cases h
  | create config other => cases h
  | delete config other => cases h

theorem cbId_mem (job : Job) (n : ℤ) (h : job.cbId = some n) : n ∈ job.numbers := by
  cases job with
  | importing config other cbId =>
    cases h
    exact mem_cons_of_mem _ (mem_singleton.mpr rfl)
  | opening other rekey => cases h
  | create config other =>
    cases h
    exact mem_singleton.mpr rfl
  | delete config other =>
    cases h
    exact mem_singleton.mpr rfl

/-! ### Commands that begin to wait -/

theorem AllKept.await (h : s.AllKept) {job : Job} {cb : ℕ} (hopen : job.openHandle = none)
    (himport : job.importHandle = none) (hcb : job.cbId = some cbId)
    (hfresh : ∀ job ∈ s.jobs, cbId ∉ job.numbers) :
    AllKept { s with
      pendingCallbacks := s.pendingCallbacks.insert cbId cb
      jobs := s.jobs ++ [job] } :=
  ⟨h.opening.append_none hopen,
    h.others.append_some hcb (notMem_filterMap cbId_mem hfresh) (fun _ => mem_insert _),
    h.pendingOpen.append_none hopen, h.pendingImport.append_none himport⟩

theorem openWallet_allKept (h : s.AllKept) (config : Config) (rekey : Bool) (answers : Answers)
    (cb : ℕ) (hfresh : ∀ job ∈ s.jobs, walletHandle ∉ job.numbers) :
    (s.openWallet types config rekey walletHandle answers cb).2.AllKept := by
  unfold openWallet
  split
  · exact h
  · exact h
  · rename_i service hprepare
    obtain ⟨hopen, himport⟩ := WalletService.openWalletPrepare_pending hprepare
    have hnew := notMem_filterMap openHandle_mem hfresh
    refine ⟨h.opening.append_some rfl hnew (fun _ => mem_insert _),
      h.others.append_none rfl, h.pendingOpen.append_some rfl hnew hopen, ?_⟩
    dsimp only
    rw [himport]
    exact h.pendingImport.append_none rfl

theorem delete_allKept (h : s.AllKept) (config : Config) (answers : Answers) (cb : ℕ)
    (hfresh : ∀ job ∈ s.jobs, cbId ∉ job.numbers) :
    (s.delete types config cbId answers cb).2.AllKept := by
  unfold delete
  split
  · exact h
  · exact h
  · exact h.await rfl rfl rfl hfresh

theorem importWallet_allKept (h : s.AllKept) (config : Config) (answers : Answers) (cb : ℕ)
    (hhandle : ∀ job ∈ s.jobs, walletHandle ∉ job.numbers)
    (hfresh : ∀ job ∈ s.jobs, cbId ∉ job.numbers) :
    (s.importWallet config walletHandle cbId answers cb).2.AllKept := by
  unfold importWallet
  split
  · exact h
  · exact h
  · rename_i service hprepare
    obtain ⟨himport, hopen⟩ := WalletService.importWalletPrepare_pending hprepare
    refine ⟨h.opening.append_none rfl,
      h.others.append_some rfl (notMem_filterMap cbId_mem hfresh) (fun _ => mem_insert _),
      ?_, h.pendingImport.append_some rfl (notMem_filterMap importHandle_mem hhandle) himport⟩
    dsimp only
    rw [hopen]
    exact h.pendingOpen.append_none rfl

/-! ### Commands that go on -/

/-- The commands that wait when one of them is taken out. -/
def without (s : Executor) (i : ℕ) : Executor := { s with jobs := s.jobs.eraseIdx i }

theorem AllKept.release (h : s.AllKept) {i : ℕ} {job : Job} (hjob : s.jobs[i]? = some job)
    (hopen : job.openHandle = none) (himport : job.importHandle = none)
    (hcb : job.cbId = some cbId) (hreleased : (s.without i).Released s' cbId) : s'.AllKept := by
  obtain ⟨hopen', himport'⟩ := hreleased.service
  have hjobs : s'.jobs = s.jobs.eraseIdx i := hreleased.jobs
  have hopening : s'.openCallbacks = s.openCallbacks := hreleased.opening
  have hpendingOpen : s'.walletService.pendingForOpen = s.walletService.pendingForOpen := hopen'
  have hpendingImport : s'.walletService.pendingForImport = s.walletService.pendingForImport :=
    himport'
  refine ⟨?_, ?_, ?_, ?_⟩
  · rw [hjobs, hopening]
    exact h.opening.erase_none hjob hopen
  · rw [hjobs]
    exact h.others.erase_some hjob hcb hreleased.callbacks
  · rw [hjobs, hpendingOpen]
    exact h.pendingOpen.erase_none hjob hopen
  · rw [hjobs, hpendingImport]
    exact h.pendingImport.erase_none hjob himport

theorem openContinue_step (h : s.AllKept) {i : ℕ} {rekey : Bool}
    (hjob : s.jobs[i]? = some (.opening walletHandle rekey)) (keyResult : Option IndyError)
    (answers : Answers) :
    (keyResult = none →
      ((s.without i).openContinue walletHandle rekey keyResult answers).2.AllKept) ∧
    (((s.without i).openContinue walletHandle rekey keyResult answers).2.PendingExact →
      keyResult = none) := by
  have hwaits : walletHandle ∈ s.jobs.filterMap Job.openHandle :=
    mem_filterMap.mpr ⟨_, mem_of_getElem? hjob, rfl⟩
  have hcallback : walletHandle ∈ (s.without i).openCallbacks :=
    (h.opening.held_iff walletHandle).mpr hwaits
  obtain ⟨hcallbacks, hjobs, hopening, himport, hpending⟩ :=
    openContinue_tables rekey keyResult answers hcallback
  have hjobs' : ((s.without i).openContinue walletHandle rekey keyResult answers).2.jobs =
      s.jobs.eraseIdx i := hjobs
  constructor
  · intro hkeys
    refine ⟨?_, ?_, ?_, ?_⟩
    · rw [hjobs']
      exact h.opening.erase_some hjob rfl hopening
    · rw [hjobs', hcallbacks]
      exact h.others.erase_none hjob rfl
    · rw [hjobs']
      refine h.pendingOpen.erase_some hjob rfl (fun n => ?_)
      rw [hpending, forall_prop_of_true hkeys]
      rfl
    · rw [hjobs', himport]
      exact h.pendingImport.erase_none hjob rfl
  · intro hexact
    by_contra hkeys
    have hentry := (hpending walletHandle).mpr
      ⟨fun hnone => absurd hnone hkeys, (h.pendingOpen.held_iff walletHandle).mpr hwaits⟩
    exact ((hopening walletHandle).mp ((hexact.opening walletHandle).mp hentry)).1 rfl

theorem importContinue_step (h : s.AllKept) {i : ℕ} {config : Config}
    (hjob : s.jobs[i]? = some (.importing config walletHandle cbId))
    (keyResult : Option IndyError) (answers : Answers) :
    (keyResult = none → ((s.without i).importContinue types cbId walletHandle config keyResult
      answers).2.AllKept) ∧
    (((s.without i).importContinue types cbId walletHandle config keyResult
      answers).2.PendingExact → keyResult = none) := by
  have hmem := mem_of_getElem? hjob
  have hwaits : walletHandle ∈ s.jobs.filterMap Job.importHandle :=
    mem_filterMap.mpr ⟨_, hmem, rfl⟩
  have hcallback : cbId ∈ (s.without i).pendingCallbacks :=
    (h.others.held_iff cbId).mpr (mem_filterMap.mpr ⟨_, hmem, rfl⟩)
  obtain ⟨hopening, hjobs, hcallbacks, hopen, hpending⟩ :=
    @importContinue_tables types _ cbId walletHandle config keyResult answers hcallback
  have hjobs' : ((s.without i).importContinue types cbId walletHandle config keyResult
      answers).2.jobs = s.jobs.eraseIdx i := hjobs
  constructor
  · intro hkeys
    refine ⟨?_, ?_, ?_, ?_⟩
    · rw [hjobs', hopening]
      exact h.opening.erase_none hjob rfl
    · rw [hjobs']
      exact h.others.erase_some hjob rfl hcallbacks
    · rw [hjobs', hopen]
      exact h.pendingOpen.erase_none hjob rfl
    · rw [hjobs']
      refine h.pendingImport.erase_some hjob rfl (fun n => ?_)
      rw [hpending, forall_prop_of_true hkeys]
      rfl
  · intro hexact
    by_contra hkeys
    have hentry := (hpending walletHandle).mpr
      ⟨fun hnone => absurd hnone hkeys, (h.pendingImport.held_iff walletHandle).mpr hwaits⟩
    obtain ⟨config', cbId', hother, -⟩ := (hexact.importing walletHandle).mp hentry
    rw [hjobs'] at hother
    have hgone := (h.pendingImport.erase_some hjob rfl (fun n => Iff.rfl)).held_iff walletHandle
    exact (hgone.mpr (mem_filterMap.mpr ⟨_, hother, rfl⟩)).1 rfl

/-! ### All commands -/

theorem execute_allKept (h : s.AllKept) {command : Command} (hfresh : s.Fresh command)
    (hkeys : s.KeysHeld command) : (command.execute types s).2.AllKept := by
  cases command with
  | create config cbId cb =>
    exact h.await rfl rfl rfl (hfresh cbId (mem_singleton.mpr rfl))
  | openWallet config rekey walletHandle answers cb =>
    exact openWallet_allKept h config rekey answers cb
      (hfresh walletHandle (mem_singleton.mpr rfl))
  | close walletHandle answers cb =>
    exact h.of_same rfl rfl rfl (WalletService.closeWallet_samePending walletHandle answers)
  | delete config cbId answers cb =>
    exact delete_allKept h config answers cb (hfresh cbId (mem_singleton.mpr rfl))
  | importWallet config walletHandle cbId answers cb =>
    exact importWallet_allKept h config answers cb (hfresh walletHandle mem_cons_self)
      (hfresh cbId (mem_cons_of_mem _ (mem_singleton.mpr rfl)))
  | keysDerived i keyResult answers =>
    rw [Command.execute, keysDerived]
    cases hjob : s.jobs[i]? with
    | none => exact h
    | some job =>
      cases job with
      | create config cbId =>
        exact h.release hjob rfl rfl rfl (createContinue_released config keyResult answers)
      | delete config cbId =>
        exact h.release hjob rfl rfl rfl (deleteContinue_released config keyResult answers)
      | opening walletHandle rekey =>
        cases keyResult with
        | none => exact (openContinue_step h hjob none answers).1 rfl
        | some e => cases (hkeys _ hjob).1
      | importing config walletHandle cbId =>
        cases keyResult with
        | none => exact (importContinue_step h hjob none answers).1 rfl
        | some e => cases (hkeys _ hjob).2

theorem keysHeld_of_pendingExact (h : s.AllKept) {command : Command}
    (hexact : (command.execute types s).2.PendingExact) : s.KeysHeld command := by
  cases command with
  | keysDerived i keyResult answers =>
    cases keyResult with
    | none => trivial
    | some e =>
      intro job hjob
      rw [Command.execute, keysDerived, hjob] at hexact
      cases job with
      | create config cbId => exact ⟨rfl, rfl⟩
      | delete config cbId => exact ⟨rfl, rfl⟩
      | opening walletHandle rekey => cases (openContinue_step h hjob (some e) answers).2 hexact
      | importing config walletHandle cbId =>
        cases (importContinue_step h hjob (some e) answers).2 hexact
  | create config cbId cb => trivial
  | openWallet config rekey walletHandle answers cb => trivial
  | close walletHandle answers cb => trivial
  | delete config cbId answers cb => trivial
  | importWallet config walletHandle cbId answers cb => trivial

end Executor

open Executor in
/-- The wallets that wait are those of the outstanding callbacks in every state of a run exactly
when no derivation of keys fails for an opening or an import. -/
theorem pendingExact_iff_keysHeld (types : StorageTypes) (storages : Finset String)
    (commands : List Command)
    (hfresh : (walletExecutor types).Along Fresh (started storages) commands) :
    (walletExecutor types).Along (fun s command => (command.execute types s).2.PendingExact)
        (started storages) commands ↔
      (walletExecutor types).Along KeysHeld (started storages) commands := by
  constructor
  · intro hexact
    refine Machine.along_of_along ?_ (allKept_started storages) (Machine.along_and hexact hfresh)
    rintro s command hkept ⟨hexact, hfresh⟩
    have hkeys := keysHeld_of_pendingExact hkept hexact
    exact ⟨hkeys, execute_allKept hkept hfresh hkeys⟩
  · intro hkeys
    refine Machine.along_of_along ?_ (allKept_started storages) (Machine.along_and hkeys hfresh)
    rintro s command hkept ⟨hkeys, hfresh⟩
    have hnext := @execute_allKept types s hkept command hfresh hkeys
    exact ⟨hnext.pendingExact, hnext⟩

/-! ### Keys that cannot be derived -/

def invalidKey : IndyError := errMsg .invalidStructure "Invalid mastery key"

/-- A wallet is created and opened. -/
def openedWallet (keyResult : Option IndyError) : List Command :=
  [.create myWallet 1 0, .keysDerived 0 none {}, .openWallet myWallet false 2 {} 1,
    .keysDerived 0 keyResult {}]

/-- The keys of an opening and of an import are not derived. -/
def failingKeys : List Command :=
  openedWallet (some invalidKey) ++
    [.importWallet ⟨"v", none, none⟩ 3 4 {} 2, .keysDerived 0 (some invalidKey) {}]

/-- The entries of an opening and of an import without keys stay, and no callback is left. -/
theorem failingKeys_leak :
    let s := (walletExecutor defaultTypes).run failingKeys (Executor.started ∅)
    2 ∈ s.walletService.pendingForOpen ∧ 3 ∈ s.walletService.pendingForImport ∧
      2 ∉ s.openCallbacks ∧ 4 ∉ s.pendingCallbacks ∧ s.jobs = [] := by
  refine ⟨?_, ?_, ?_, ?_, rfl⟩
  · decide
  · decide
  · decide
  · decide

/-- With the keys at hand, the entries go with the callbacks. -/
theorem pendingExact_iff_keysHeld_openedWallet :
    (walletExecutor defaultTypes).Along
      (fun s command => (command.execute defaultTypes s).2.PendingExact) (Executor.started ∅)
      (openedWallet none) := by
  have hnone : ∀ (s : Executor) (command : Command), s.jobs = [] ∨ command.numbers = [] →
      s.Fresh command := by
    rintro s command (hjobs | hnumbers) n hn job hjob
    · rw [hjobs] at hjob
      cases hjob
    · rw [hnumbers] at hn
      cases hn
  have hfresh : (walletExecutor defaultTypes).Along Executor.Fresh (Executor.started ∅)
      (openedWallet none) :=
    ⟨hnone _ _ (.inl rfl), hnone _ _ (.inr rfl), hnone _ _ (.inl rfl),
      hnone _ _ (.inr rfl), trivial⟩
  exact (pendingExact_iff_keysHeld defaultTypes ∅ _ hfresh).mpr
    ⟨trivial, trivial, trivial, trivial, trivial⟩

end IndySdk.Wallets
