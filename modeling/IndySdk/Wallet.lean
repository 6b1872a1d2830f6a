import IndySdk.Lockstep
import IndySdk.SqliteStorage

/-!
# Wallets over the default storage

A wallet encrypts what it is given, calls its storage and decrypts what it gets back. An opened
wallet is a connection and the database behind it; closing and reopening keeps the database and
the keys, and starts a new connection.
-/

namespace IndySdk.Wallet

open SQLiteStorage

variable (wc : WalletCrypto) (keys : Keys) (fromStr : RecordOptionsReader)
  (order : IterationOrder)

def encryptType (type : String) : Bytes :=
  encryptAsSearchable wc (Bytes.ofText type) keys.typeKey keys.itemHmacKey

def encryptName (name : String) : Bytes :=
  encryptAsSearchable wc (Bytes.ofText name) keys.nameKey keys.itemHmacKey

def add (type name value : String) (tags : AssocMap String String) (random : ValueRandomness) :
    StorageCall Unit :=
  SQLiteStorage.add (encryptType wc keys type) (encryptName wc keys name)
    (EncryptedValue.encrypt wc value keys.valueKey random) (encryptTags wc keys tags)

def addTags (type name : String) (tags : AssocMap String String) : StorageCall Unit :=
  SQLiteStorage.addTags (encryptType wc keys type) (encryptName wc keys name)
    (encryptTags wc keys tags)

def updateTags (type name : String) (tags : AssocMap String String) : StorageCall Unit :=
  SQLiteStorage.updateTags (encryptType wc keys type) (encryptName wc keys name)
    (encryptTags wc keys tags)

def deleteTags (type name : String) (tagNames : List String) : StorageCall Unit :=
  SQLiteStorage.deleteTags (encryptType wc keys type) (encryptName wc keys name)
    (encryptTagNames wc keys tagNames)

def update (type name newValue : String) (random : ValueRandomness) : StorageCall Unit :=
  SQLiteStorage.update (encryptType wc keys type) (encryptName wc keys name)
    (EncryptedValue.encrypt wc newValue keys.valueKey random)

def get (type name options : String) (db : Db) : IndyResult WalletRecord := do
  let result ← SQLiteStorage.get fromStr order (encryptType wc keys type)
    (encryptName wc keys name) options db
  let value ← match result.value with
    | none => pure none
    | some encryptedValue => some <$> encryptedValue.decrypt wc keys.valueKey
  let tags ← decryptTags wc keys result.tags
  pure ⟨result.type.map (fun _ => type), name, value, tags⟩

def delete (conn : Connection) (type name : String) : StorageCall Unit :=
  SQLiteStorage.delete conn (encryptType wc keys type) (encryptName wc keys name)

/-- The records an iterator over the whole wallet yields. -/
def getAll (db : Db) : IndyResult (List WalletRecord) :=
  (SQLiteStorage.getAll order db).mapM (decryptStorageRecord wc keys)

/-- An opened wallet. -/
structure Store where
  conn : Connection
  db : Db

def Store.create (metadata : Bytes) : Store :=
  ⟨SQLiteStorageType.openStorage, (SQLiteStorageType.createStorage metadata).2⟩

def Store.reopen (s : Store) : Store := { s with conn := SQLiteStorageType.openStorage }

inductive Op where
  | add (type name value : String) (tags : AssocMap String String)
  | update (type name newValue : String)
  | addTags (type name : String) (tags : AssocMap String String)
  | updateTags (type name : String) (tags : AssocMap String String)
  | deleteTags (type name : String) (tagNames : List String)
  | delete (type name : String)
  | get (type name options : String)
  | getAll
  | reopen

/-- A call of the wallet, with the random material it draws. -/
structure Call where
  op : Op
  random : ValueRandomness

inductive Reply where
  | done
  | record (record : WalletRecord)
  | records (records : List WalletRecord)

def Store.exec (s : Store) (call : StorageCall Unit) : IndyResult Reply × Store :=
  ((fun _ => Reply.done) <$> (call s.db).1, { s with db := (call s.db).2 })

def step (c : Call) (s : Store) : IndyResult Reply × Store :=
  match c.op with
  | .add type name value tags => s.exec (add wc keys type name value tags c.random)
  | .update type name newValue => s.exec (update wc keys type name newValue c.random)
  | .addTags type name tags => s.exec (addTags wc keys type name tags)
  | .updateTags type name tags => s.exec (updateTags wc keys type name tags)
  | .deleteTags type name tagNames => s.exec (deleteTags wc keys type name tagNames)
  | .delete type name => s.exec (delete wc keys s.conn type name)
  | .get type name options =>
    (Reply.record <$> get wc keys fromStr order type name options s.db, s)
  | .getAll => (Reply.records <$> getAll wc keys order s.db, s)
  | .reopen => (.ok .done, s.reopen)

def machine : Machine Store Call (IndyResult Reply) := ⟨step wc keys fromStr order⟩

theorem Store.exec_db_of_err {s : Store} {call : StorageCall Unit}
    (hk : SQLiteStorage.KeepsOnError call) {e : IndyError} (h : (s.exec call).1 = .err e) :
    (s.exec call).2.db = s.db := by
  refine hk s.db e ?_
  cases hc : (call s.db).1 with
  | ok a =>
    rw [Store.exec, hc] at h
    cases h
  | err e' =>
    rw [Store.exec, hc] at h
    cases h
    rfl
  | panic =>
    rw [Store.exec, hc] at h
    cases h

theorem step_db_of_err {c : Call} {s : Store} {e : IndyError}
    (h : (step wc keys fromStr order c s).1 = .err e) :
    (step wc keys fromStr order c s).2.db = s.db := by
  obtain ⟨op, random⟩ := c
  cases op with
  | add => exact Store.exec_db_of_err (keepsOnError_transaction _) h
  | update => exact Store.exec_db_of_err (keepsOnError_update _ _ _) h
  | addTags => exact Store.exec_db_of_err (keepsOnError_transaction _) h
  | updateTags => exact Store.exec_db_of_err (keepsOnError_transaction _) h
  | deleteTags => exact Store.exec_db_of_err (keepsOnError_deleteTags _ _ _) h
  | delete => exact Store.exec_db_of_err (keepsOnError_delete _ _ _) h
  | get => rfl
  | getAll => rfl
  | reopen => rfl

end IndySdk.Wallet
