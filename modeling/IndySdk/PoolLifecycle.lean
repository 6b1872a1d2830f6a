import IndySdk.PoolService

/-!
# The life of a pool

No name should be held by two pools, a configuration should not be deleted under a pool, and a pool
that failed to open should be forgotten. The service looks for a name among the open pools only,
and a failure that a thread reports takes the callback away but not the pending pool.
-/

namespace IndySdk.Pools

open AssocMap Function AList

inductive Place where
  | opened (handle : ℤ)
  | pending (handle : ℤ)
  deriving DecidableEq

namespace PoolService

variable (s : PoolService)

/-- The name of the pool at a place. -/
def names : Place → Option String
  | .opened handle => s.openPools.lookup handle
  | .pending handle => s.pendingPools.lookup handle

def Held (name : String) : Prop := ∃ place, s.names place = some name

def Forgotten (handle : ℤ) : Prop :=
  s.names (.opened handle) = none ∧ s.names (.pending handle) = none

instance (handle : ℤ) : Decidable (s.Forgotten handle) :=
  inferInstanceAs (Decidable (_ ∧ _))

theorem held_iff {name : String} :
    s.Held name ↔ name ∈ s.openPools.values ∨ name ∈ s.pendingPools.values := by
  rw [mem_values, mem_values]
  constructor
  · rintro ⟨place, hplace⟩
    cases place with
    | opened handle => exact .inl ⟨handle, hplace⟩
    | pending handle => exact .inr ⟨handle, hplace⟩
  · rintro (⟨handle, hhandle⟩ | ⟨handle, hhandle⟩)
    · exact ⟨.opened handle, hhandle⟩
    · exact ⟨.pending handle, hhandle⟩

theorem names_insert_pending (handle : ℤ) (name : String) :
    names { s with pendingPools := s.pendingPools.insert handle name } =
      Function.update s.names (.pending handle) (some name) := by
  funext place
  by_cases h : place = .pending handle
  · rw [h, update_self]
    exact lookup_insert _
  · rw [update_of_ne h]
    cases place with
    | opened other => rfl
    | pending other => exact lookup_insert_ne (fun he => h (congrArg _ he))

theorem names_erase_open (handle : ℤ) :
    names { s with openPools := s.openPools.erase handle } =
      Function.update s.names (.opened handle) none := by
  funext place
  by_cases h : place = .opened handle
  · rw [h, update_self]
    exact lookup_erase _ _
  · rw [update_of_ne h]
    cases place with
    | opened other => exact lookup_erase_ne (fun he => h (congrArg _ he))
    | pending other => rfl

theorem names_move (handle : ℤ) (name : String) :
    names ⟨s.openPools.insert handle name, s.pendingPools.erase handle⟩ =
      Function.update (Function.update s.names (.pending handle) none) (.opened handle)
        (some name) := by
  funext place
  by_cases h : place = .opened handle
  · rw [h, update_self]
    exact lookup_insert _
  · rw [update_of_ne h]
    by_cases h' : place = .pending handle
    · rw [h', update_self]
      exact lookup_erase _ _
    · rw [update_of_ne h']
      cases place with
      | opened other => exact lookup_insert_ne (fun he => h (congrArg _ he))
      | pending other => exact lookup_erase_ne (fun he => h' (congrArg _ he))

end PoolService

/-! ### What a command should do -/

def Failed (reply : Reply) : Prop := ∃ cb e, reply = some (cb, .err e)

namespace Executor

variable (s : Executor)

/-- The configuration of a pool that is open or pending is not deleted. -/
def DeleteRefused : Command → Prop
  | .delete name removeDir cb =>
    s.poolService.Held name → Failed (s.delete name removeDir cb).1 ∧
      (s.delete name removeDir cb).2.configs = s.configs
  | _ => True

/-- A pool whose opening failed, at once or when its thread reports it, has no entry. -/
def FailureForgotten : Command → Prop
  | .openPool name poolHandle sockets cb =>
    Failed (s.openPool name poolHandle sockets cb).1 →
      (s.openPool name poolHandle sockets cb).2.poolService = s.poolService
  | .openAck handle poolId result =>
    Failed (s.openAck handle poolId result).1 →
      (s.openAck handle poolId result).2.poolService.Forgotten poolId
  | _ => True

structure Sound (command : Command) : Prop where
  exclusive : Occupancy.Exclusive (command.execute s).2.poolService.names
  refused : s.DeleteRefused command
  forgotten : s.FailureForgotten command

/-- No other pool of the name is pending when one is opened, no configuration is deleted while a
pool of its name is pending, and no thread reports a failure of a pool that has an entry. -/
def Guarded : Command → Prop
  | .openPool name poolHandle sockets _ =>
    name ∈ s.poolService.openPools.values ∨ sockets.isSome ∨
      name ∉ values (s.poolService.pendingPools.erase poolHandle)
  | .delete name removeDir _ =>
    name ∈ s.poolService.openPools.values ∨ ¬(name ∈ s.configs ∧ removeDir) ∨
      name ∉ s.poolService.pendingPools.values
  | .openAck handle poolId result =>
    s.openCallbacks.lookup handle = none ∨
      (result.isNone ∧ poolId ∈ s.poolService.pendingPools) ∨ s.poolService.Forgotten poolId
  | _ => True

instance : DecidablePred s.Guarded
  | .openPool .. => inferInstanceAs (Decidable (_ ∨ _ ∨ _))
  | .delete .. => inferInstanceAs (Decidable (_ ∨ _ ∨ _))
  | .openAck .. => inferInstanceAs (Decidable (_ ∨ _ ∨ _))
  | .create .. | .close .. | .closeAck .. | .refresh .. | .refreshAck .. =>
    inferInstanceAs (Decidable True)

end Executor

/-! ### What a command does -/

theorem not_failed_none : ¬ Failed none := by
  rintro ⟨cb, e, h⟩
  cases h

theorem not_failed_ok (cb : ℕ) (answer : Answer) : ¬ Failed (some (cb, .ok answer)) := by
  rintro ⟨cb', e, h⟩
  cases h

theorem failed_err (cb : ℕ) (e : IndyError) : Failed (some (cb, .err e)) := ⟨cb, e, rfl⟩

namespace PoolService

variable {s : PoolService} {name : String}

theorem openPool_of_open (h : name ∈ s.openPools.values) (poolHandle : ℤ)
    (sockets : Option IndyError) : (s.openPool name poolHandle sockets).2 = s := by
  unfold openPool
  rw [if_pos h]

theorem openPool_of_sockets (name : String) (poolHandle : ℤ) (e : IndyError) :
    (s.openPool name poolHandle (some e)).2 = s := by
  unfold openPool
  split
  · rfl
  · rfl

theorem openPool_of_free (h : name ∉ s.openPools.values) (poolHandle : ℤ) :
    s.openPool name poolHandle none =
      (.ok poolHandle, { s with pendingPools := s.pendingPools.insert poolHandle name }) := by
  rw [openPool, if_neg h]

theorem exclusive_insert_iff (hs : Occupancy.Exclusive s.names) (h : name ∉ s.openPools.values)
    (poolHandle : ℤ) :
    Occupancy.Exclusive (names { s with pendingPools := s.pendingPools.insert poolHandle name }) ↔
      name ∉ values (s.pendingPools.erase poolHandle) := by
  rw [names_insert_pending, hs.fill_iff, mem_values]
  constructor
  · rintro hother ⟨handle, hhandle⟩
    by_cases he : handle = poolHandle
    · rw [he, lookup_erase] at hhandle
      cases hhandle
    · rw [lookup_erase_ne he] at hhandle
      cases hother (.pending handle) hhandle
      exact he rfl
  · intro hother place hplace
    cases place with
    | opened handle => exact absurd (mem_values.mpr ⟨handle, hplace⟩) h
    | pending handle =>
      by_contra hne
      refine hother ⟨handle, ?_⟩
      rw [lookup_erase_ne (fun he => hne (congrArg _ he))]
      exact hplace

theorem exclusive_openPool_iff (hs : Occupancy.Exclusive s.names) (name : String) (poolHandle : ℤ)
    (sockets : Option IndyError) :
    Occupancy.Exclusive (s.openPool name poolHandle sockets).2.names ↔
      name ∈ s.openPools.values ∨ sockets.isSome ∨
        name ∉ values (s.pendingPools.erase poolHandle) := by
  by_cases hopen : name ∈ s.openPools.values
  · rw [openPool_of_open hopen]
    exact ⟨fun _ => .inl hopen, fun _ => hs⟩
  · cases sockets with
    | some e =>
      rw [openPool_of_sockets]
      exact ⟨fun _ => .inr (.inl rfl), fun _ => hs⟩
    | none =>
      rw [openPool_of_free hopen, exclusive_insert_iff hs hopen]
      constructor
      · exact fun h => .inr (.inr h)
      · rintro (h | h | h)
        · exact absurd h hopen
        · cases h
        · exact h

theorem exclusive_addOpenPool (hs : Occupancy.Exclusive s.names) (poolId : ℤ) :
    Occupancy.Exclusive (s.addOpenPool poolId).2.names := by
  rw [addOpenPool]
  cases hname : s.pendingPools.lookup poolId with
  | none => exact hs
  | some name =>
    dsimp only
    rw [names_move]
    exact hs.move (x := .pending poolId) hname _

theorem exclusive_close (hs : Occupancy.Exclusive s.names) (handle cmdId : ℤ)
    (sent : Option IndyError) : Occupancy.Exclusive (s.close handle cmdId sent).2.names := by
  unfold close
  split
  · dsimp only
    rw [names_erase_open]
    exact hs.empty _
  · exact hs

end PoolService

namespace Executor

variable {s : Executor}

theorem deleteRefused_iff (name : String) (removeDir : Bool) (cb : ℕ) :
    s.DeleteRefused (.delete name removeDir cb) ↔ s.Guarded (.delete name removeDir cb) := by
  rw [DeleteRefused, Guarded, PoolService.held_iff, delete, PoolService.delete]
  by_cases hopen : name ∈ s.poolService.openPools.values
  · rw [if_pos hopen]
    exact ⟨fun _ => .inl hopen, fun _ _ => ⟨failed_err cb _, rfl⟩⟩
  · rw [if_neg hopen]
    by_cases hremove : name ∈ s.configs ∧ removeDir
    · rw [if_pos hremove]
      constructor
      · intro h
        refine .inr (.inr (fun hpending => ?_))
        exact not_failed_ok _ _ (h (.inr hpending)).1
      · rintro (h | h | h) hheld
        · exact absurd h hopen
        · exact absurd hremove h
        · exact absurd hheld (not_or.mpr ⟨hopen, h⟩)
    · rw [if_neg hremove]
      exact ⟨fun _ => .inr (.inl hremove), fun _ _ => ⟨failed_err cb _, rfl⟩⟩

theorem openPool_failureForgotten (name : String) (poolHandle : ℤ) (sockets : Option IndyError)
    (cb : ℕ) : s.FailureForgotten (.openPool name poolHandle sockets cb) := by
  intro hfailed
  by_cases hopen : name ∈ s.poolService.openPools.values
  · exact PoolService.openPool_of_open hopen poolHandle sockets
  · cases sockets with
    | some e => exact PoolService.openPool_of_sockets name poolHandle e
    | none =>
      rw [openPool, PoolService.openPool_of_free hopen] at hfailed
      exact absurd hfailed not_failed_none

theorem openAck_failureForgotten_iff (handle poolId : ℤ) (result : Option IndyError) :
    s.FailureForgotten (.openAck handle poolId result) ↔
      s.Guarded (.openAck handle poolId result) := by
  rw [FailureForgotten, Guarded, openAck]
  cases hcb : s.openCallbacks.lookup handle with
  | none => exact ⟨fun _ => .inl rfl, fun _ h => absurd h not_failed_none⟩
  | some cb =>
    cases result with
    | some e =>
      constructor
      · exact fun h => .inr (.inr (h (failed_err cb e)))
      · rintro (h | h | h) _
        · cases h
        · cases h.1
        · exact h
    | none =>
      dsimp only
      rw [PoolService.addOpenPool]
      cases hname : s.poolService.pendingPools.lookup poolId with
      | none =>
        have hnot : poolId ∉ s.poolService.pendingPools := lookup_eq_none.mp hname
        constructor
        · exact fun h => .inr (.inr (h (failed_err cb _)))
        · rintro (h | h | h) _
          · cases h
          · exact absurd h.2 hnot
          · exact h
      | some name =>
        have hmem : poolId ∈ s.poolService.pendingPools := by
          rw [← lookup_isSome, hname]
          rfl
        exact ⟨fun _ => .inr (.inl ⟨rfl, hmem⟩), fun _ h => absurd h (not_failed_ok cb _)⟩

theorem exclusive_execute_iff (hs : Occupancy.Exclusive s.poolService.names) (command : Command) :
    Occupancy.Exclusive (command.execute s).2.poolService.names ↔
      match command with
      | .openPool .. => s.Guarded command
      | _ => True := by
  cases command with
  | openPool name poolHandle sockets cb => exact PoolService.exclusive_openPool_iff hs ..
  | create name files cb => exact iff_of_true hs trivial
  | delete name removeDir cb => exact iff_of_true hs trivial
  | openAck handle poolId result =>
    refine iff_of_true ?_ trivial
    rw [Command.execute, openAck]
    cases s.openCallbacks.lookup handle with
    | none => exact hs
    | some cb =>
      cases result with
      | some e => exact hs
      | none => exact PoolService.exclusive_addOpenPool hs poolId
  | close handle cmdId sent cb =>
    exact iff_of_true (PoolService.exclusive_close hs handle cmdId sent) trivial
  | closeAck handle result =>
    refine iff_of_true ?_ trivial
    rw [Command.execute, closeAck]
    cases s.closeCallbacks.lookup handle with
    | none => exact hs
    | some cb => exact hs
  | refresh handle cmdId sent cb => exact iff_of_true hs trivial
  | refreshAck handle result =>
    refine iff_of_true ?_ trivial
    rw [Command.execute, refreshAck]
    cases s.refreshCallbacks.lookup handle with
    | none => exact hs
    | some cb => exact hs

theorem sound_iff_guarded (hs : Occupancy.Exclusive s.poolService.names) (command : Command) :
    s.Sound command ↔ s.Guarded command := by
  have hexclusive := exclusive_execute_iff hs command
  cases command with
  | openPool name poolHandle sockets cb =>
    exact ⟨fun h => hexclusive.mp h.exclusive,
      fun h => ⟨hexclusive.mpr h, trivial, openPool_failureForgotten name poolHandle sockets cb⟩⟩
  | delete name removeDir cb =>
    have hrefused := deleteRefused_iff (s := s) name removeDir cb
    exact ⟨fun h => hrefused.mp h.refused,
      fun h => ⟨hexclusive.mpr trivial, hrefused.mpr h, trivial⟩⟩
  | openAck handle poolId result =>
    have hforgotten := openAck_failureForgotten_iff (s := s) handle poolId result
    exact ⟨fun h => hforgotten.mp h.forgotten,
      fun h => ⟨hexclusive.mpr trivial, trivial, hforgotten.mpr h⟩⟩
  | create | close | closeAck | refresh | refreshAck =>
    exact iff_of_true ⟨hexclusive.mpr trivial, trivial, trivial⟩ trivial

end Executor

/-! ### Runs of the executor -/

theorem pool_runs_sound_iff (commands : List Command) :
    poolExecutor.Along Executor.Sound {} commands ↔
      poolExecutor.Along Executor.Guarded {} commands := by
  have hstart : Occupancy.Exclusive (PoolService.names {}) := by
    intro x y name hx
    cases x with
    | opened handle => cases hx
    | pending handle => cases hx
  refine Machine.along_iff_of_kept
    (fun s command hs => Executor.sound_iff_guarded hs command) ?_ commands hstart
  intro s command hs hguarded
  exact ((Executor.sound_iff_guarded hs command).mpr hguarded).exclusive

/-- The genesis file has transactions and every file can be written. -/
def workingFiles : CreateFiles := ⟨.ok 4, .ok (), .ok (), .ok (), .ok (), .ok ()⟩

/-- The second opening of a name that is pending, a configuration deleted under its pending pool,
and a pending pool whose failure was reported. -/
theorem pendingPool_overlooked :
    ¬ poolExecutor.Along Executor.Sound {}
        [.create "pool" workingFiles 0, .openPool "pool" 1 none 1, .openPool "pool" 2 none 2] ∧
      ¬ poolExecutor.Along Executor.Sound {}
        [.create "pool" workingFiles 0, .openPool "pool" 1 none 1, .delete "pool" true 2] ∧
      ¬ poolExecutor.Along Executor.Sound {}
        [.create "pool" workingFiles 0, .openPool "pool" 1 none 1,
          .openAck 1 1 (some (errMsg .poolTimeout "Pool timeout"))] := by
  refine ⟨?_, ?_, ?_⟩
  · rintro ⟨-, -, hopen, -⟩
    have hsame := hopen.exclusive (.pending 1) (.pending 2) "pool" (by decide +kernel)
      (by decide +kernel)
    cases hsame
  · rintro ⟨-, -, hdelete, -⟩
    have hfailed := (hdelete.refused ⟨.pending 1, by decide +kernel⟩).1
    exact not_failed_ok 2 .done hfailed
  · rintro ⟨-, -, hack, -⟩
    have hforgotten := hack.forgotten ⟨1, _, rfl⟩
    exact absurd hforgotten (by decide +kernel)

end IndySdk.Pools
