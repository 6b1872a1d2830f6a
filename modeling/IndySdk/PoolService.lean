import IndySdk.AssocMap
import IndySdk.Errors
import IndySdk.Lockstep
import IndySdk.Occupancy

/-!
# The pools of the library

A pool that is opened waits among the pending pools until its thread acknowledges that it has
caught up with the ledger, and is an open pool after that. The executor of the pool commands keeps
the callback of every command that is acknowledged later. The numbers of commands and pools come
from a counter that the whole library shares, and are inputs here.
-/

namespace IndySdk.Pools

structure PoolService where
  openPools : AssocMap ℤ String := ∅
  pendingPools : AssocMap ℤ String := ∅

/-- What the files answer while a pool is created; the genesis transactions are counted. -/
structure CreateFiles where
  genesis : IndyResult ℕ
  createDir : Outcome Unit Unit
  copyGenesis : Outcome Unit Unit
  createConfig : Outcome Unit Unit
  serializeConfig : Outcome Unit Unit
  writeConfig : Outcome Unit Unit

/-- The directories of the pools that are configured. -/
abbrev Configs := Finset String

def create (name : String) (files : CreateFiles) (configs : Configs) :
    IndyResult Unit × Configs :=
  if name ∈ configs then
    (.err (errMsg .poolConfigAlreadyExists
      "Pool ledger config file with name \"_\" already exists" [name]), configs)
  else
    match files.genesis with
    | .err e => (.err e, configs)
    | .panic => (.panic, configs)
    | .ok 0 => (.err (errMsg .invalidStructure "Empty genesis transaction file"), configs)
    | .ok _ =>
      match toIndy .ioError "Can't create pool config directory" files.createDir with
      | .err e => (.err e, configs)
      | .panic => (.panic, configs)
      | .ok () =>
        (do
          toIndy .ioError "Can't copy genesis txn file" files.copyGenesis
          toIndy .ioError "Can't create pool config file" files.createConfig
          toIndy .invalidState "Can't serialize pool config" files.serializeConfig
          toIndy .ioError "Can't write to pool config file" files.writeConfig, insert name configs)

namespace PoolService

variable (s : PoolService)

def delete (name : String) (removeDir : Bool) (configs : Configs) : IndyResult Unit × Configs :=
  if name ∈ s.openPools.values then
    (.err (errMsg .invalidState "Can't delete pool config - pool is open now"), configs)
  else if name ∈ configs ∧ removeDir then (.ok (), configs.erase name)
  else (.err (errMsg .ioError "Can't delete pool config directory"), configs)

/-- The sockets are bound, connected and told to connect the pool before it is pending. -/
def openPool (name : String) (poolHandle : ℤ) (sockets : Option IndyError) :
    IndyResult ℤ × PoolService :=
  if name ∈ s.openPools.values then
    (.err (errMsg .invalidPoolHandle "Pool with the same name is already opened"), s)
  else
    match sockets with
    | some e => (.err e, s)
    | none =>
      (.ok poolHandle, { s with pendingPools := s.pendingPools.insert poolHandle name })

def addOpenPool (poolId : ℤ) : IndyResult ℤ × PoolService :=
  match s.pendingPools.lookup poolId with
  | none =>
    (.err (errMsg .invalidPoolHandle "No pool with requested handle _" [toString poolId]), s)
  | some name =>
    (.ok poolId, ⟨s.openPools.insert poolId name, s.pendingPools.erase poolId⟩)

def sendAction (handle cmdId : ℤ) (sent : Option IndyError) : IndyResult ℤ :=
  if handle ∈ s.openPools then
    match sent with
    | some e => .err e
    | none => .ok cmdId
  else .err (errMsg .invalidPoolHandle "No pool with requested handle _" [toString handle])

/-- The pool is taken out before it is told to exit. -/
def close (handle cmdId : ℤ) (sent : Option IndyError) : IndyResult ℤ × PoolService :=
  if handle ∈ s.openPools then
    (match sent with
      | some e => .err e
      | none => .ok cmdId, { s with openPools := s.openPools.erase handle })
  else
    (.err (errMsg .invalidPoolHandle "No pool with requested handle _" [toString handle]), s)

def refresh (handle cmdId : ℤ) (sent : Option IndyError) : IndyResult ℤ :=
  s.sendAction handle cmdId sent

end PoolService

/-! ### The executor of the pool commands -/

structure Executor where
  poolService : PoolService := {}
  configs : Configs := ∅
  openCallbacks : AssocMap ℤ ℕ := ∅
  closeCallbacks : AssocMap ℤ ℕ := ∅
  refreshCallbacks : AssocMap ℤ ℕ := ∅

/-- Commands come with their callbacks, acknowledgements from the threads of the pools. -/
inductive Command where
  | create (name : String) (files : CreateFiles) (cb : ℕ)
  | delete (name : String) (removeDir : Bool) (cb : ℕ)
  | openPool (name : String) (poolHandle : ℤ) (sockets : Option IndyError) (cb : ℕ)
  | openAck (handle poolId : ℤ) (result : Option IndyError)
  | close (handle cmdId : ℤ) (sent : Option IndyError) (cb : ℕ)
  | closeAck (handle : ℤ) (result : Option IndyError)
  | refresh (handle cmdId : ℤ) (sent : Option IndyError) (cb : ℕ)
  | refreshAck (handle : ℤ) (result : Option IndyError)

inductive Answer where
  | done
  | opened (poolHandle : ℤ)
  deriving DecidableEq

/-- The callback a command calls, with its answer. -/
abbrev Reply := Option (ℕ × IndyResult Answer)

def acknowledge : Option IndyError → IndyResult Answer
  | some e => .err e
  | none => .ok .done

/-- A callback waits for its acknowledgement, or is called with the error at once. -/
def await (callbacks : AssocMap ℤ ℕ) (cb : ℕ) : IndyResult ℤ → Reply × AssocMap ℤ ℕ
  | .ok handle => (none, callbacks.insert handle cb)
  | .err e => (some (cb, .err e), callbacks)
  | .panic => (some (cb, .panic), callbacks)

namespace Executor

variable (s : Executor)

def create (name : String) (files : CreateFiles) (cb : ℕ) : Reply × Executor :=
  let (result, configs) := Pools.create name files s.configs
  (some (cb, (fun _ => .done) <$> result), { s with configs })

def delete (name : String) (removeDir : Bool) (cb : ℕ) : Reply × Executor :=
  let (result, configs) := s.poolService.delete name removeDir s.configs
  (some (cb, (fun _ => .done) <$> result), { s with configs })

def openPool (name : String) (poolHandle : ℤ) (sockets : Option IndyError) (cb : ℕ) :
    Reply × Executor :=
  let (result, poolService) := s.poolService.openPool name poolHandle sockets
  let (reply, openCallbacks) := await s.openCallbacks cb result
  (reply, { s with poolService, openCallbacks })

def openAck (handle poolId : ℤ) (result : Option IndyError) : Reply × Executor :=
  match s.openCallbacks.lookup handle with
  | none => (none, s)
  | some cb =>
    let openCallbacks := s.openCallbacks.erase handle
    match result with
    | some e => (some (cb, .err e), { s with openCallbacks })
    | none =>
      let (result, poolService) := s.poolService.addOpenPool poolId
      (some (cb, .opened <$> result), { s with poolService, openCallbacks })

def close (handle cmdId : ℤ) (sent : Option IndyError) (cb : ℕ) : Reply × Executor :=
  let (result, poolService) := s.poolService.close handle cmdId sent
  let (reply, closeCallbacks) := await s.closeCallbacks cb result
  (reply, { s with poolService, closeCallbacks })

def closeAck (handle : ℤ) (result : Option IndyError) : Reply × Executor :=
  match s.closeCallbacks.lookup handle with
  | none => (none, s)
  | some cb =>
    (some (cb, acknowledge result), { s with closeCallbacks := s.closeCallbacks.erase handle })

def refresh (handle cmdId : ℤ) (sent : Option IndyError) (cb : ℕ) : Reply × Executor :=
  let (reply, refreshCallbacks) :=
    await s.refreshCallbacks cb (s.poolService.refresh handle cmdId sent)
  (reply, { s with refreshCallbacks })

def refreshAck (handle : ℤ) (result : Option IndyError) : Reply × Executor :=
  match s.refreshCallbacks.lookup handle with
  | none => (none, s)
  | some cb =>
    (some (cb, acknowledge result), { s with refreshCallbacks := s.refreshCallbacks.erase handle })

end Executor

def Command.execute (s : Executor) : Command → Reply × Executor
  | .create name files cb => s.create name files cb
  | .delete name removeDir cb => s.delete name removeDir cb
  | .openPool name poolHandle sockets cb => s.openPool name poolHandle sockets cb
  | .openAck handle poolId result => s.openAck handle poolId result
  | .close handle cmdId sent cb => s.close handle cmdId sent cb
  | .closeAck handle result => s.closeAck handle result
  | .refresh handle cmdId sent cb => s.refresh handle cmdId sent cb
  | .refreshAck handle result => s.refreshAck handle result

def poolExecutor : Machine Executor Command Reply := ⟨fun command s => command.execute s⟩

end IndySdk.Pools
