import IndySdk.Table
import IndySdk.WalletEncryption

/-!
# The default wallet storage

Records live in a table of items and two tables of tags. Statements act on a `Db`; a statement
that fails inside a transaction drops the transaction, which rolls back to the state it began in.
Deleting an item deletes its tags only through the cascade of the foreign key, which the database
engine honours on connections that turned foreign keys on.
-/

namespace IndySdk.Wallet

open Outcome List

structure ItemRow where
  id : ℕ
  type : Bytes
  name : Bytes
  value : Bytes
  key : Bytes
  deriving DecidableEq

/-- The primary key and the unique index of the items table. -/
def ItemRow.conflict (r s : ItemRow) : Prop := r.id = s.id ∨ (r.type = s.type ∧ r.name = s.name)

instance : DecidableRel ItemRow.conflict := fun _ _ => instDecidableOr

structure TagRow (α : Type) where
  name : Bytes
  value : α
  itemId : ℕ
  deriving DecidableEq

/-- The primary key of the tag tables. -/
def TagRow.conflict {α : Type} (r s : TagRow α) : Prop := r.name = s.name ∧ r.itemId = s.itemId

instance {α : Type} : DecidableRel (@TagRow.conflict α) := fun _ _ => instDecidableAnd

structure TagTables where
  encrypted : Table (@TagRow.conflict Bytes)
  plaintext : Table (@TagRow.conflict String)

structure Db where
  metadata : Bytes
  items : Table ItemRow.conflict
  tags : TagTables

/-- A connection to the database file and the pragma that decides about cascades. -/
structure Connection where
  foreignKeys : Bool

inductive Pragma where
  | lockingModeExclusive
  | journalModeWal
  | synchronousFull
  | foreignKeysOn

namespace Connection

/-- A connection as the engine opens it. -/
def opened : Connection := ⟨false⟩

def pragma (conn : Connection) : Pragma → Connection
  | .lockingModeExclusive | .journalModeWal | .synchronousFull => conn
  | .foreignKeysOn => { conn with foreignKeys := true }

end Connection

inductive SqliteError where
  | constraintViolation
  | queryReturnedNoRows
  | other
  deriving DecidableEq

def SqliteError.toIndy : SqliteError → IndyError
  | .constraintViolation => errMsg .walletItemAlreadyExists "Wallet item already exists"
  | _ => errMsg .invalidState "Unexpected sqlite error"

/-- A storage call: a result, and the database it leaves behind. -/
abbrev StorageCall (α : Type) := Db → IndyResult α × Db

/-- Run statements as a transaction. -/
def transaction {α : Type} (body : Db → IndyResult (α × Db)) : StorageCall α := fun db =>
  match body db with
  | .ok (a, db') => (.ok a, db')
  | .err e => (.err e, db)
  | .panic => (.panic, db)

namespace TagTables

variable (tables : TagTables)

def insertTag (itemId : ℕ) : Tag → Option TagTables
  | .encrypted name value =>
    (tables.encrypted.insert ⟨name, value, itemId⟩).map (fun t => { tables with encrypted := t })
  | .plainText name value =>
    (tables.plaintext.insert ⟨name, value, itemId⟩).map (fun t => { tables with plaintext := t })

def insertOrReplaceTag (itemId : ℕ) : Tag → TagTables
  | .encrypted name value =>
    { tables with encrypted := tables.encrypted.insertOrReplace ⟨name, value, itemId⟩ }
  | .plainText name value =>
    { tables with plaintext := tables.plaintext.insertOrReplace ⟨name, value, itemId⟩ }

def deleteTag (itemId : ℕ) : TagName → TagTables
  | .ofEncrypted name => { tables with
      encrypted := tables.encrypted.deleteWhere (fun r => r.itemId = itemId ∧ r.name = name) }
  | .ofPlain name => { tables with
      plaintext := tables.plaintext.deleteWhere (fun r => r.itemId = itemId ∧ r.name = name) }

def deleteTagsOf (itemId : ℕ) : TagTables where
  encrypted := tables.encrypted.deleteWhere (fun r => r.itemId = itemId)
  plaintext := tables.plaintext.deleteWhere (fun r => r.itemId = itemId)

def insertTags (itemId : ℕ) (tags : List Tag) : IndyResult TagTables :=
  ofOption SqliteError.constraintViolation.toIndy
    (tags.foldlM (fun tables tag => tables.insertTag itemId tag) tables)

def insertOrReplaceTags (itemId : ℕ) (tags : List Tag) : TagTables :=
  tags.foldl (fun tables tag => tables.insertOrReplaceTag itemId tag) tables

def deleteTags (itemId : ℕ) (tagNames : List TagName) : TagTables :=
  tagNames.foldl (fun tables name => tables.deleteTag itemId name) tables

variable (order : IterationOrder)

def selectEncrypted (itemId : ℕ) : List Tag :=
  (order.order (tables.encrypted.rows.filter (fun r => r.itemId = itemId))).map
    (fun r => .encrypted r.name r.value)

def selectPlaintext (itemId : ℕ) : List Tag :=
  (order.order (tables.plaintext.rows.filter (fun r => r.itemId = itemId))).map
    (fun r => .plainText r.name r.value)

/-- The tag is stored for the item. -/
def Holds (itemId : ℕ) : Tag → Prop
  | .encrypted name value => ⟨name, value, itemId⟩ ∈ tables.encrypted.rows
  | .plainText name value => ⟨name, value, itemId⟩ ∈ tables.plaintext.rows

theorem conflict_symm {α : Type} (r s : TagRow α) (h : r.conflict s) : s.conflict r :=
  ⟨h.1.symm, h.2.symm⟩

variable {tables} {itemId : ℕ}

theorem Holds.eq_of_name_eq {s t : Tag} (hs : tables.Holds itemId s) (ht : tables.Holds itemId t)
    (h : s.name = t.name) : s = t := by
  cases s with
  | encrypted n v =>
    cases t with
    | encrypted n' v' =>
      have he := tables.encrypted.eq_of_conflict conflict_symm hs ht
        ⟨TagName.ofEncrypted.inj h, rfl⟩
      cases he
      rfl
    | plainText n' v' => cases h
  | plainText n v =>
    cases t with
    | encrypted n' v' => cases h
    | plainText n' v' =>
      have he := tables.plaintext.eq_of_conflict conflict_symm hs ht ⟨TagName.ofPlain.inj h, rfl⟩
      cases he
      rfl

theorem insertTag_eq_none_iff {tag : Tag} :
    tables.insertTag itemId tag = none ↔ ∃ t, tables.Holds itemId t ∧ t.name = tag.name := by
  cases tag with
  | encrypted n v =>
    rw [insertTag, Option.map_eq_none_iff, Table.insert_eq_none_iff]
    constructor
    · rintro ⟨⟨n', v', i⟩, hs, rfl, rfl⟩
      exact ⟨.encrypted _ v', hs, rfl⟩
    · rintro ⟨⟨n', v'⟩ | ⟨n', v'⟩, ht, hn⟩
      · exact ⟨_, ht, TagName.ofEncrypted.inj hn, rfl⟩
      · cases hn
  | plainText n v =>
    rw [insertTag, Option.map_eq_none_iff, Table.insert_eq_none_iff]
    constructor
    · rintro ⟨⟨n', v', i⟩, hs, rfl, rfl⟩
      exact ⟨.plainText _ v', hs, rfl⟩
    · rintro ⟨⟨n', v'⟩ | ⟨n', v'⟩, ht, hn⟩
      · cases hn
      · exact ⟨_, ht, TagName.ofPlain.inj hn, rfl⟩

theorem insertTag_holds {tag : Tag} {tables' : TagTables}
    (h : tables.insertTag itemId tag = some tables') (j : ℕ) (t : Tag) :
    tables'.Holds j t ↔ tables.Holds j t ∨ (j = itemId ∧ t = tag) := by
  cases tag with
  | encrypted n v =>
    obtain ⟨e, he, rfl⟩ := Option.map_eq_some_iff.mp h
    have hrows := (Table.insert_eq_some_iff.mp he).2
    cases t with
    | encrypted n' v' => simp [Holds, hrows, and_comm, and_left_comm]
    | plainText n' v' => simp [Holds]
  | plainText n v =>
    obtain ⟨e, he, rfl⟩ := Option.map_eq_some_iff.mp h
    have hrows := (Table.insert_eq_some_iff.mp he).2
    cases t with
    | encrypted n' v' => simp [Holds]
    | plainText n' v' => simp [Holds, hrows, and_comm, and_assoc]

theorem insertOrReplaceTag_holds (itemId : ℕ) (tag : Tag) (j : ℕ) (t : Tag) :
    (tables.insertOrReplaceTag itemId tag).Holds j t ↔
      (j = itemId ∧ t = tag) ∨ (tables.Holds j t ∧ ¬ (j = itemId ∧ t.name = tag.name)) := by
  cases tag <;> cases t <;>
    simp [Holds, insertOrReplaceTag, Table.mem_insertOrReplace, TagRow.conflict, Tag.name,
      and_comm, and_left_comm, and_assoc]

theorem deleteTag_holds (itemId : ℕ) (name : TagName) (j : ℕ) (t : Tag) :
    (tables.deleteTag itemId name).Holds j t ↔
      tables.Holds j t ∧ ¬ (j = itemId ∧ t.name = name) := by
  cases name <;> cases t <;> simp [Holds, deleteTag, Table.mem_deleteWhere, Tag.name]

theorem deleteTagsOf_holds (itemId : ℕ) (j : ℕ) (t : Tag) :
    (tables.deleteTagsOf itemId).Holds j t ↔ tables.Holds j t ∧ j ≠ itemId := by
  cases t <;> simp [Holds, deleteTagsOf, Table.mem_deleteWhere]

theorem insertTags_cases (tables : TagTables) (itemId : ℕ) (tags : List Tag) :
    tables.insertTags itemId tags = .err SqliteError.constraintViolation.toIndy ∨
      ∃ tables', tables.insertTags itemId tags = .ok tables' := by
  rw [insertTags]
  cases tags.foldlM (fun tables tag => insertTag tables itemId tag) tables with
  | none => exact .inl rfl
  | some tables' => exact .inr ⟨tables', rfl⟩

theorem insertTags_eq_ok {itemId : ℕ} {tags : List Tag}
    (hp : tags.Pairwise (fun s t => s.name ≠ t.name))
    (hfree : ∀ s, tables.Holds itemId s → ∀ t ∈ tags, s.name ≠ t.name) :
    ∃ tables', tables.insertTags itemId tags = .ok tables' ∧
      ∀ j t, tables'.Holds j t ↔ tables.Holds j t ∨ (j = itemId ∧ t ∈ tags) := by
  simp only [insertTags, ofOption_eq_ok]
  induction tags generalizing tables with
  | nil => exact ⟨tables, rfl, fun j t => by simp⟩
  | cons tag tags ih =>
    obtain ⟨hne, hp⟩ := pairwise_cons.mp hp
    cases hi : tables.insertTag itemId tag with
    | none =>
      obtain ⟨t, ht, hn⟩ := insertTag_eq_none_iff.mp hi
      exact absurd hn (hfree t ht tag mem_cons_self)
    | some tables₁ =>
      have hh := insertTag_holds hi
      have hfree₁ : ∀ s, tables₁.Holds itemId s → ∀ t ∈ tags, s.name ≠ t.name := by
        intro s hs t ht
        rcases (hh itemId s).mp hs with hs | ⟨-, rfl⟩
        · exact hfree s hs t (mem_cons_of_mem _ ht)
        · exact hne t ht
      obtain ⟨tables', hf, hholds⟩ := ih hp hfree₁
      refine ⟨tables', by rw [foldlM_cons, hi]; exact hf, fun j t => ?_⟩
      rw [hholds, hh, or_assoc, ← and_or_left, mem_cons]

theorem insertTags_ok {tags : List Tag} {tables' : TagTables}
    (h : tables.insertTags itemId tags = .ok tables') :
    (∀ j t, tables'.Holds j t ↔ tables.Holds j t ∨ (j = itemId ∧ t ∈ tags)) ∧
      ∀ s, tables.Holds itemId s → ∀ t ∈ tags, s.name ≠ t.name := by
  simp only [insertTags, ofOption_eq_ok] at h
  induction tags generalizing tables with
  | nil =>
    cases h
    exact ⟨fun j t => by simp, fun s _ t ht => absurd ht not_mem_nil⟩
  | cons tag tags ih =>
    rw [foldlM_cons] at h
    obtain ⟨tables₁, hi, h⟩ := Option.bind_eq_some_iff.mp h
    have hh := insertTag_holds hi
    obtain ⟨hholds, hfree⟩ := ih h
    refine ⟨fun j t => by rw [hholds, hh, or_assoc, ← and_or_left, mem_cons], ?_⟩
    intro s hs t ht
    rcases mem_cons.mp ht with rfl | ht
    · intro hn
      rw [insertTag_eq_none_iff.mpr ⟨s, hs, hn⟩] at hi
      cases hi
    · exact hfree s ((hh _ _).mpr (.inl hs)) t ht

theorem insertOrReplaceTags_holds {itemId : ℕ} {tags : List Tag}
    (hp : tags.Pairwise (fun s t => s.name ≠ t.name)) (j : ℕ) (t : Tag) :
    (tables.insertOrReplaceTags itemId tags).Holds j t ↔
      (j = itemId ∧ t ∈ tags) ∨
        (tables.Holds j t ∧ ¬ (j = itemId ∧ ∃ s ∈ tags, t.name = s.name)) := by
  induction tags generalizing tables with
  | nil => simp [insertOrReplaceTags]
  | cons tag tags ih =>
    obtain ⟨hne, hp⟩ := pairwise_cons.mp hp
    change ((tables.insertOrReplaceTag itemId tag).insertOrReplaceTags itemId tags).Holds j t ↔ _
    rw [ih hp, insertOrReplaceTag_holds]
    by_cases hj : j = itemId
    · by_cases ht : t = tag
      · subst ht
        have hfree : ¬ ∃ s ∈ tags, t.name = s.name := fun ⟨s, hs, hn⟩ => hne s hs hn
        simp [hj, hfree]
      · simp only [hj, ht, true_and, false_or, mem_cons, not_or, and_assoc,
          exists_eq_or_imp]
    · simp [hj]

theorem deleteTags_holds (itemId : ℕ) (names : List TagName) (j : ℕ) (t : Tag) :
    (tables.deleteTags itemId names).Holds j t ↔
      tables.Holds j t ∧ ¬ (j = itemId ∧ t.name ∈ names) := by
  induction names generalizing tables with
  | nil => simp [deleteTags]
  | cons name names ih =>
    change ((tables.deleteTag itemId name).deleteTags itemId names).Holds j t ↔ _
    rw [ih, deleteTag_holds, and_assoc, ← not_or, ← and_or_left, mem_cons]

theorem mem_select {order : IterationOrder} {itemId : ℕ} {t : Tag} :
    t ∈ tables.selectEncrypted order itemId ++ tables.selectPlaintext order itemId ↔
      tables.Holds itemId t := by
  simp only [mem_append, selectEncrypted, selectPlaintext, mem_map,
    IterationOrder.mem_order, mem_filter, decide_eq_true_eq]
  constructor
  · rintro (⟨r, ⟨hr, rfl⟩, rfl⟩ | ⟨r, ⟨hr, rfl⟩, rfl⟩)
    · exact hr
    · exact hr
  · intro h
    cases t with
    | encrypted n v => exact .inl ⟨_, ⟨h, rfl⟩, rfl⟩
    | plainText n v => exact .inr ⟨_, ⟨h, rfl⟩, rfl⟩

theorem pairwise_names {α : Type} (order : IterationOrder) (itemId : ℕ)
    (t : Table (@TagRow.conflict α)) :
    (order.order (t.rows.filter (fun r => r.itemId = itemId))).Pairwise
      (fun r s => r.name ≠ s.name) := by
  rw [(order.perm _).pairwise_iff (fun h => h.symm)]
  refine (t.pairwise.filter _).imp_of_mem ?_
  intro r s hr hs hc hn
  have hri := of_decide_eq_true (mem_filter.mp hr).2
  have hsi := of_decide_eq_true (mem_filter.mp hs).2
  exact hc ⟨hn, hri.trans hsi.symm⟩

theorem pairwise_select (order : IterationOrder) (itemId : ℕ) :
    (tables.selectEncrypted order itemId ++ tables.selectPlaintext order itemId).Pairwise
      (fun s t => s.name ≠ t.name) := by
  refine pairwise_append.mpr ⟨?_, ?_, ?_⟩
  · exact pairwise_map.mpr ((pairwise_names order itemId tables.encrypted).imp
      (fun h he => h (TagName.ofEncrypted.inj he)))
  · exact pairwise_map.mpr ((pairwise_names order itemId tables.plaintext).imp
      (fun h he => h (TagName.ofPlain.inj he)))
  · intro s hs t ht he
    obtain ⟨r, -, rfl⟩ := mem_map.mp hs
    obtain ⟨r', -, rfl⟩ := mem_map.mp ht
    cases he

theorem mem_retrieve {order : IterationOrder} {t : Tag} :
    t ∈ tables.selectPlaintext order itemId ++ tables.selectEncrypted order itemId ↔
      tables.Holds itemId t := by
  rw [← @mem_select tables order, mem_append, mem_append, or_comm]

theorem pairwise_retrieve (order : IterationOrder) (itemId : ℕ) :
    (tables.selectPlaintext order itemId ++ tables.selectEncrypted order itemId).Pairwise
      (fun s t => s.name ≠ t.name) :=
  (perm_append_comm.pairwise_iff (fun h => h.symm)).mp (pairwise_select order itemId)

end TagTables

structure RecordOptions where
  retrieveType : Bool
  retrieveValue : Bool
  retrieveTags : Bool

def RecordOptions.default : RecordOptions := ⟨false, true, false⟩

/-- The JSON reader of the record options. -/
abbrev RecordOptionsReader := String → Option RecordOptions

def readRecordOptions (fromStr : RecordOptionsReader) (options : String) :
    IndyResult RecordOptions :=
  if options = "{}" then .ok .default
  else ofOption (errMsg .invalidStructure "RecordOptions is malformed json")
    (fromStr options)

namespace SQLiteStorage

def selectItem (db : Db) (type id : Bytes) : Option ItemRow :=
  db.items.rows.find? (fun r => r.type = type ∧ r.name = id)

def get (fromStr : RecordOptionsReader) (order : IterationOrder) (type id : Bytes)
    (options : String) (db : Db) : IndyResult StorageRecord := do
  let options ← readRecordOptions fromStr options
  let item ← ofOption (errMsg .walletItemNotFound "Wallet item not found")
    (selectItem db type id)
  pure {
    id := id
    value := if options.retrieveValue then some ⟨item.value, item.key⟩ else none
    type := if options.retrieveType then some type else none
    tags :=
      if options.retrieveTags then
        some (db.tags.selectEncrypted order item.id ++ db.tags.selectPlaintext order item.id)
      else none }

def add (type id : Bytes) (value : EncryptedValue) (tags : List Tag) : StorageCall Unit :=
  transaction fun db => do
    let rowId := nextRowId (db.items.rows.map ItemRow.id)
    let items ← ofOption SqliteError.constraintViolation.toIndy
      (db.items.insert ⟨rowId, type, id, value.data, value.key⟩)
    let tables ← db.tags.insertTags rowId tags
    pure ((), { db with items := items, tags := tables })

def setValue (value : EncryptedValue) (r : ItemRow) : ItemRow :=
  { r with value := value.data, key := value.key }

theorem setValue_conflict (p : ItemRow → Bool) (value : EncryptedValue) (r s : ItemRow)
    (h : ItemRow.conflict (if p r then setValue value r else r)
      (if p s then setValue value s else s)) : ItemRow.conflict r s := by
  by_cases hr : p r <;> by_cases hs : p s <;>
    simpa only [hr, hs, if_true, if_false, Bool.false_eq_true, setValue, ItemRow.conflict] using h

def update (type id : Bytes) (value : EncryptedValue) : StorageCall Unit := fun db =>
  let matching : ItemRow → Bool := fun r => r.type = type ∧ r.name = id
  let db' := { db with items :=
    db.items.updateWhere matching (setValue value) (setValue_conflict matching value) }
  match db.items.rows.countP matching with
  | 1 => (.ok (), db')
  | 0 => (.err (errMsg .walletItemNotFound "Item to update not found"), db')
  | _ => (.err (errMsg .invalidState
      "More than one row update. Seems wallet structure is inconsistent"), db')

def addTags (type id : Bytes) (tags : List Tag) : StorageCall Unit :=
  transaction fun db => do
    let item ← ofOption (errMsg .walletItemNotFound "Item to update not found")
      (selectItem db type id)
    pure ((), { db with tags := db.tags.insertOrReplaceTags item.id tags })

def updateTags (type id : Bytes) (tags : List Tag) : StorageCall Unit :=
  transaction fun db => do
    let item ← ofOption (errMsg .walletItemNotFound "Item to update not found")
      (selectItem db type id)
    let tables ← (db.tags.deleteTagsOf item.id).insertTags item.id tags
    pure ((), { db with tags := tables })

def deleteTags (type id : Bytes) (tagNames : List TagName) : StorageCall Unit := fun db =>
  match selectItem db type id with
  | none => (.err (errMsg .walletItemNotFound "Item to delete not found"), db)
  | some item =>
    transaction (fun db => pure ((), { db with tags := db.tags.deleteTags item.id tagNames })) db

/-- The rows that refer to deleted items go with them when the connection enforces it. -/
def cascade (conn : Connection) (deleted : List ItemRow) (tables : TagTables) : TagTables :=
  if conn.foreignKeys then deleted.foldl (fun tables r => tables.deleteTagsOf r.id) tables
  else tables

def delete (conn : Connection) (type id : Bytes) : StorageCall Unit := fun db =>
  let matching : ItemRow → Bool := fun r => r.type = type ∧ r.name = id
  let db' := { db with
    items := db.items.deleteWhere matching
    tags := cascade conn (db.items.rows.filter matching) db.tags }
  if db.items.rows.countP matching = 1 then (.ok (), db')
  else (.err (errMsg .walletItemNotFound "Item to delete not found"), db')

def retrieve (order : IterationOrder) (db : Db) (itemId : ℕ) : List Tag :=
  db.tags.selectPlaintext order itemId ++ db.tags.selectEncrypted order itemId

/-- The records an iterator over all items yields. -/
def getAll (order : IterationOrder) (db : Db) : List StorageRecord :=
  (order.order db.items.rows).map (fun r => {
    id := r.name
    value := some ⟨r.value, r.key⟩
    type := some r.type
    tags := some (retrieve order db r.id) })

theorem ItemRow.conflict_symm (r s : ItemRow) (h : r.conflict s) : s.conflict r :=
  h.imp Eq.symm (fun h => ⟨h.1.symm, h.2.symm⟩)

theorem matching_conflict {type id : Bytes} (r s : ItemRow)
    (hr : decide (r.type = type ∧ r.name = id) = true)
    (hs : decide (s.type = type ∧ s.name = id) = true) : r.conflict s := by
  have hr := of_decide_eq_true hr
  have hs := of_decide_eq_true hs
  exact .inr ⟨hr.1.trans hs.1.symm, hr.2.trans hs.2.symm⟩

variable {db : Db} {type id : Bytes} {r : ItemRow}

theorem selectItem_eq_some_iff :
    selectItem db type id = some r ↔ r ∈ db.items.rows ∧ r.type = type ∧ r.name = id := by
  rw [selectItem, db.items.find?_eq_some_iff ItemRow.conflict_symm matching_conflict,
    decide_eq_true_iff]

theorem selectItem_eq_none_iff :
    selectItem db type id = none ↔ ∀ r ∈ db.items.rows, ¬ (r.type = type ∧ r.name = id) := by
  simp only [selectItem, find?_eq_none, decide_eq_true_iff]

theorem eq_of_id_eq {s : ItemRow} (hr : r ∈ db.items.rows) (hs : s ∈ db.items.rows)
    (h : r.id = s.id) : r = s :=
  db.items.eq_of_conflict ItemRow.conflict_symm hr hs (.inl h)

theorem update_of_none (h : selectItem db type id = none) (value : EncryptedValue) :
    update type id value db =
      (.err (errMsg .walletItemNotFound "Item to update not found"), db) := by
  have hc := db.items.countP_eq (@matching_conflict type id)
  rw [selectItem] at h
  rw [h] at hc
  simp only [update, hc, Option.elim_none, Table.updateWhere_of_find?_eq_none h]

theorem update_of_some (h : selectItem db type id = some r) (value : EncryptedValue) :
    ∃ items, update type id value db = (.ok (), { db with items := items }) ∧
      ∀ s, s ∈ items.rows ↔ s = setValue value r ∨ (s ∈ db.items.rows ∧ s ≠ r) := by
  have hc := db.items.countP_eq (@matching_conflict type id)
  obtain ⟨hr, hk⟩ := selectItem_eq_some_iff.mp h
  rw [selectItem] at h
  rw [h] at hc
  simp only [update, hc, Option.elim_some]
  refine ⟨_, rfl, fun s => ?_⟩
  rw [Table.mem_updateWhere]
  constructor
  · rintro ⟨s', hs', rfl⟩
    by_cases hm : s'.type = type ∧ s'.name = id
    · have he : s' = r := db.items.eq_of_conflict ItemRow.conflict_symm hs' hr
        (matching_conflict s' r (decide_eq_true hm) (decide_eq_true hk))
      rw [if_pos (decide_eq_true hm), he]
      exact .inl rfl
    · rw [if_neg (by simpa using hm)]
      exact .inr ⟨hs', fun he => hm (he ▸ hk)⟩
  · rintro (rfl | ⟨hs, hne⟩)
    · exact ⟨r, hr, if_pos (decide_eq_true hk)⟩
    · refine ⟨s, hs, if_neg (fun hm => hne ?_)⟩
      exact db.items.eq_of_conflict ItemRow.conflict_symm hs hr
        (matching_conflict s r hm (decide_eq_true hk))

theorem delete_of_none (h : selectItem db type id = none) (conn : Connection) :
    delete conn type id db =
      (.err (errMsg .walletItemNotFound "Item to delete not found"), db) := by
  have hc := db.items.countP_eq (@matching_conflict type id)
  rw [selectItem] at h
  rw [h] at hc
  have hf : db.items.rows.filter (fun r => r.type = type ∧ r.name = id) = [] :=
    filter_eq_nil_iff.mpr (find?_eq_none.mp h)
  simp only [delete, hc, Option.elim_none, Table.deleteWhere_of_find?_eq_none h, hf, cascade,
    foldl_nil, ite_self]
  rfl

theorem cascade_holds (conn : Connection) (deleted : List ItemRow) (tables : TagTables) (j : ℕ)
    (t : Tag) : (cascade conn deleted tables).Holds j t ↔
      tables.Holds j t ∧ (conn.foreignKeys = true → ∀ r ∈ deleted, j ≠ r.id) := by
  rw [cascade]
  by_cases hf : conn.foreignKeys
  · rw [if_pos hf]
    simp only [hf, true_implies]
    induction deleted generalizing tables with
    | nil => simp
    | cons r deleted ih =>
      rw [foldl_cons, ih, TagTables.deleteTagsOf_holds, forall_mem_cons, and_assoc]
  · rw [if_neg hf]
    simp [hf]

theorem delete_of_some (h : selectItem db type id = some r) (conn : Connection) :
    ∃ items tables, delete conn type id db =
        (.ok (), { db with items := items, tags := tables }) ∧
      (∀ s, s ∈ items.rows ↔ s ∈ db.items.rows ∧ s ≠ r) ∧
      ∀ j t, tables.Holds j t ↔
        db.tags.Holds j t ∧ (conn.foreignKeys = true → j ≠ r.id) := by
  have hc := db.items.countP_eq (@matching_conflict type id)
  obtain ⟨hr, hk⟩ := selectItem_eq_some_iff.mp h
  rw [selectItem] at h
  rw [h] at hc
  have honly : ∀ s ∈ db.items.rows, (s.type = type ∧ s.name = id) ↔ s = r := by
    intro s hs
    refine ⟨fun hm => ?_, fun he => he ▸ hk⟩
    exact db.items.eq_of_conflict ItemRow.conflict_symm hs hr
      (matching_conflict s r (decide_eq_true hm) (decide_eq_true hk))
  simp only [delete, hc, Option.elim_some, if_true]
  refine ⟨_, _, rfl, fun s => ?_, fun j t => ?_⟩
  · rw [Table.mem_deleteWhere, decide_eq_true_iff]
    exact and_congr_right (fun hs => not_congr (honly s hs))
  · rw [cascade_holds]
    refine and_congr_right (fun _ => imp_congr_right (fun _ => ?_))
    constructor
    · exact fun hall => hall r (mem_filter.mpr ⟨hr, decide_eq_true hk⟩)
    · intro hj s hs
      obtain ⟨hs, hm⟩ := mem_filter.mp hs
      rw [(honly s hs).mp (of_decide_eq_true hm)]
      exact hj

def rowIdOf (db : Db) : ℕ := nextRowId (db.items.rows.map ItemRow.id)

theorem rowIdOf_ne (h : r ∈ db.items.rows) : r.id ≠ rowIdOf db :=
  (lt_nextRowId (mem_map_of_mem h)).ne

theorem add_of_some (h : selectItem db type id = some r) (value : EncryptedValue)
    (tags : List Tag) :
    add type id value tags db = (.err SqliteError.constraintViolation.toIndy, db) := by
  obtain ⟨hr, hk⟩ := selectItem_eq_some_iff.mp h
  have hi : db.items.insert ⟨rowIdOf db, type, id, value.data, value.key⟩ = none :=
    Table.insert_eq_none_iff.mpr ⟨r, hr, .inr hk⟩
  simp only [rowIdOf] at hi
  simp only [add, transaction, hi, ofOption_none, err_bind]

theorem add_of_none {db : Db} {type id : Bytes} (h : selectItem db type id = none)
    (value : EncryptedValue) (tags : List Tag) :
    ∃ items : Table ItemRow.conflict,
      items.rows = db.items.rows ++ [⟨rowIdOf db, type, id, value.data, value.key⟩] ∧
      add type id value tags db =
        match db.tags.insertTags (rowIdOf db) tags with
        | .ok tables => (.ok (), { db with items := items, tags := tables })
        | .err e => (.err e, db)
        | .panic => (.panic, db) := by
  have hfree : ∀ s ∈ db.items.rows,
      ¬ s.conflict ⟨rowIdOf db, type, id, value.data, value.key⟩ := by
    rintro s hs (hid | hk)
    · exact rowIdOf_ne hs hid
    · exact selectItem_eq_none_iff.mp h s hs hk
  cases hi : db.items.insert ⟨rowIdOf db, type, id, value.data, value.key⟩ with
  | none =>
    obtain ⟨s, hs, hc⟩ := Table.insert_eq_none_iff.mp hi
    exact absurd hc (hfree s hs)
  | some items =>
    refine ⟨items, (Table.insert_eq_some_iff.mp hi).2, ?_⟩
    simp only [rowIdOf] at hi ⊢
    simp only [add, transaction, hi, ofOption_some, ok_bind]
    cases db.tags.insertTags _ tags with
    | ok tables => rfl
    | err e => rfl
    | panic => rfl

/-- A call that fails leaves the database as it was. -/
def KeepsOnError {α : Type} (call : StorageCall α) : Prop :=
  ∀ db e, (call db).1 = .err e → (call db).2 = db

theorem keepsOnError_transaction {α : Type} (body : Db → IndyResult (α × Db)) :
    KeepsOnError (transaction body) := by
  intro db e h
  cases hb : body db with
  | ok p => simp [transaction, hb] at h
  | err e' => simp [transaction, hb]
  | panic => simp [transaction, hb]

theorem keepsOnError_update (type id : Bytes) (value : EncryptedValue) :
    KeepsOnError (update type id value) := by
  intro db e h
  cases hs : selectItem db type id with
  | none => rw [update_of_none hs]
  | some r =>
    obtain ⟨items, hu, -⟩ := update_of_some hs value
    rw [hu] at h
    cases h

theorem keepsOnError_deleteTags (type id : Bytes) (tagNames : List TagName) :
    KeepsOnError (deleteTags type id tagNames) := by
  intro db e h
  cases hs : selectItem db type id with
  | none => simp [deleteTags, hs]
  | some r =>
    simp only [deleteTags, hs] at h ⊢
    exact keepsOnError_transaction _ db e h

theorem keepsOnError_delete (conn : Connection) (type id : Bytes) :
    KeepsOnError (delete conn type id) := by
  intro db e h
  cases hs : selectItem db type id with
  | none => rw [delete_of_none hs]
  | some r =>
    obtain ⟨items, tables, hd, -⟩ := delete_of_some hs conn
    rw [hd] at h
    cases h

end SQLiteStorage

namespace SQLiteStorageType

/-- The connection that creates a storage, which its caller drops, and the new database file. -/
def createStorage (metadata : Bytes) : Connection × Db :=
  ((Connection.opened.pragma .lockingModeExclusive).pragma .foreignKeysOn,
    ⟨metadata, .empty, ⟨.empty, .empty⟩⟩)

def openStorage : Connection :=
  (Connection.opened.pragma .journalModeWal).pragma .synchronousFull

@[simp] theorem openStorage_foreignKeys : openStorage.foreignKeys = false := rfl

end SQLiteStorageType

end IndySdk.Wallet
