import IndySdk.RecordMap

/-!
# Wallets refine record maps

`Represents` ties a database to the record map it stands for. Every call preserves it, except an
`add` that is given a row id under which tags of a deleted record are still stored: connections
made by `open_storage` leave foreign keys off, so deleting a record leaves its tags behind, and
the next free row id can be the deleted one.
-/

namespace IndySdk.Wallet

open Outcome Option

variable (wc : WalletCrypto) (keys : Keys)

/-- The tags stored for an item are the encryptions of the given ones. -/
def TagsAre (tables : TagTables) (itemId : ℕ) (tags : String → Option String) : Prop :=
  ∀ tag, tables.Holds itemId tag ↔ ∃ n v, tags n = some v ∧ tag = encryptTag wc keys n v

/-- A row of the items table stores an entry. -/
structure Stores (tables : TagTables) (r : ItemRow) (type name : String) (e : Entry) : Prop where
  type_eq : r.type = encryptType wc keys type
  name_eq : r.name = encryptName wc keys name
  value : EncryptedValue.decrypt wc ⟨r.value, r.key⟩ keys.valueKey = .ok e.value
  tags : TagsAre wc keys tables r.id e.tags

structure Represents (db : Db) (m : RecordMap) : Prop where
  row : ∀ r ∈ db.items.rows, ∃ type name e, m (type, name) = some e ∧
    Stores wc keys db.tags r type name e
  entry : ∀ type name e, m (type, name) = some e → ∃ r ∈ db.items.rows,
    r.type = encryptType wc keys type ∧ r.name = encryptName wc keys name
  encrypted : ∀ itemId tag, db.tags.Holds itemId tag → ∃ n v, tag = encryptTag wc keys n v

theorem encryptType_inj {a b : String} : encryptType wc keys a = encryptType wc keys b ↔ a = b :=
  (encryptAsSearchable_inj wc).trans Bytes.ofText_injective.eq_iff

theorem encryptName_inj {a b : String} : encryptName wc keys a = encryptName wc keys b ↔ a = b :=
  (encryptAsSearchable_inj wc).trans Bytes.ofText_injective.eq_iff

variable {wc keys} {tables : TagTables} {r : ItemRow} {type name : String} {e : Entry} {db : Db}
  {m : RecordMap} {items : Table ItemRow.conflict} {itemId : ℕ}

theorem Stores.key_inj {type' name' : String} (h : Stores wc keys tables r type' name' e)
    (ht : r.type = encryptType wc keys type) (hn : r.name = encryptName wc keys name) :
    type' = type ∧ name' = name :=
  ⟨(encryptType_inj wc keys).mp (h.type_eq.symm.trans ht),
    (encryptName_inj wc keys).mp (h.name_eq.symm.trans hn)⟩

theorem Represents.selectItem_of_some (h : Represents wc keys db m) (he : m (type, name) = some e) :
    ∃ r, SQLiteStorage.selectItem db (encryptType wc keys type) (encryptName wc keys name) =
      some r ∧ Stores wc keys db.tags r type name e := by
  obtain ⟨r, hr, ht, hn⟩ := h.entry type name e he
  obtain ⟨type', name', e', he', hs⟩ := h.row r hr
  obtain ⟨rfl, rfl⟩ := hs.key_inj ht hn
  cases he.symm.trans he'
  exact ⟨r, SQLiteStorage.selectItem_eq_some_iff.mpr ⟨hr, ht, hn⟩, hs⟩

theorem Represents.selectItem_of_none (h : Represents wc keys db m) (he : m (type, name) = none) :
    SQLiteStorage.selectItem db (encryptType wc keys type) (encryptName wc keys name) = none := by
  refine SQLiteStorage.selectItem_eq_none_iff.mpr (fun r hr hk => ?_)
  obtain ⟨type', name', e', he', hs⟩ := h.row r hr
  obtain ⟨rfl, rfl⟩ := hs.key_inj hk.1 hk.2
  cases he.symm.trans he'

/-- Change one row and its entry, and no tags but those of the row. -/
theorem Represents.change (h : Represents wc keys db m) {r' : ItemRow} {e' : Entry}
    (hr : SQLiteStorage.selectItem db (encryptType wc keys type) (encryptName wc keys name) =
      some r) (hid : r'.id = r.id)
    (hitems : ∀ s, s ∈ items.rows ↔ s = r' ∨ (s ∈ db.items.rows ∧ s ≠ r))
    (hother : ∀ j, j ≠ r.id → ∀ t, tables.Holds j t ↔ db.tags.Holds j t)
    (hself : Stores wc keys tables r' type name e') :
    Represents wc keys { db with items := items, tags := tables }
      (Function.update m (type, name) (some e')) := by
  obtain ⟨hmem, ht, hn⟩ := SQLiteStorage.selectItem_eq_some_iff.mp hr
  refine ⟨fun s hs => ?_, fun type₁ name₁ e₁ he₁ => ?_, fun j t hj => ?_⟩
  · rcases (hitems s).mp hs with rfl | ⟨hs, hne⟩
    · exact ⟨type, name, e', Function.update_self .., hself⟩
    · obtain ⟨type₁, name₁, e₁, he₁, hs₁⟩ := h.row s hs
      have hk : (type₁, name₁) ≠ (type, name) := by
        intro hk
        cases hk
        exact hne (db.items.eq_of_conflict SQLiteStorage.ItemRow.conflict_symm hs hmem
          (.inr ⟨hs₁.type_eq.trans ht.symm, hs₁.name_eq.trans hn.symm⟩))
      have hidne : s.id ≠ r.id := fun hi => hne (SQLiteStorage.eq_of_id_eq hs hmem hi)
      refine ⟨type₁, name₁, e₁, (Function.update_of_ne hk ..).trans he₁, ⟨hs₁.type_eq,
        hs₁.name_eq, hs₁.value, fun tag => ?_⟩⟩
      exact (hother s.id hidne tag).trans (hs₁.tags tag)
  · by_cases hk : (type₁, name₁) = (type, name)
    · cases hk
      exact ⟨r', (hitems r').mpr (.inl rfl), hself.type_eq, hself.name_eq⟩
    · rw [Function.update_of_ne hk] at he₁
      obtain ⟨s, hs, hst, hsn⟩ := h.entry type₁ name₁ e₁ he₁
      refine ⟨s, (hitems s).mpr (.inr ⟨hs, fun he => hk ?_⟩), hst, hsn⟩
      subst he
      rw [(encryptType_inj wc keys).mp (hst.symm.trans ht),
        (encryptName_inj wc keys).mp (hsn.symm.trans hn)]
  · by_cases hj' : j = r.id
    · rw [hj', ← hid] at hj
      obtain ⟨n, v, -, ht⟩ := (hself.tags t).mp hj
      exact ⟨n, v, ht⟩
    · exact h.encrypted j t ((hother j hj' t).mp hj)

theorem Represents.insert (h : Represents wc keys db m) (hm : m (type, name) = none)
    (hitems : items.rows = db.items.rows ++ [r]) (hid : ∀ s ∈ db.items.rows, s.id ≠ r.id)
    (hother : ∀ j, j ≠ r.id → ∀ t, tables.Holds j t ↔ db.tags.Holds j t)
    (hself : Stores wc keys tables r type name e) :
    Represents wc keys { db with items := items, tags := tables }
      (Function.update m (type, name) (some e)) := by
  have hmem : ∀ s, s ∈ items.rows ↔ s ∈ db.items.rows ∨ s = r := by simp [hitems]
  refine ⟨fun s hs => ?_, fun type₁ name₁ e₁ he₁ => ?_, fun j t hj => ?_⟩
  · rcases (hmem s).mp hs with hs | rfl
    · obtain ⟨type₁, name₁, e₁, he₁, hs₁⟩ := h.row s hs
      have hk : (type₁, name₁) ≠ (type, name) := by
        intro hk
        rw [hk, hm] at he₁
        cases he₁
      refine ⟨type₁, name₁, e₁, (Function.update_of_ne hk ..).trans he₁, ⟨hs₁.type_eq,
        hs₁.name_eq, hs₁.value, fun tag => ?_⟩⟩
      exact (hother s.id (hid s hs) tag).trans (hs₁.tags tag)
    · exact ⟨type, name, e, Function.update_self .., hself⟩
  · by_cases hk : (type₁, name₁) = (type, name)
    · cases hk
      exact ⟨r, (hmem r).mpr (.inr rfl), hself.type_eq, hself.name_eq⟩
    · rw [Function.update_of_ne hk] at he₁
      obtain ⟨s, hs, hst, hsn⟩ := h.entry type₁ name₁ e₁ he₁
      exact ⟨s, (hmem s).mpr (.inl hs), hst, hsn⟩
  · by_cases hj' : j = r.id
    · rw [hj'] at hj
      obtain ⟨n, v, -, ht⟩ := (hself.tags t).mp hj
      exact ⟨n, v, ht⟩
    · exact h.encrypted j t ((hother j hj' t).mp hj)

theorem Represents.erase (h : Represents wc keys db m)
    (hr : SQLiteStorage.selectItem db (encryptType wc keys type) (encryptName wc keys name) =
      some r) (hitems : ∀ s, s ∈ items.rows ↔ s ∈ db.items.rows ∧ s ≠ r)
    (hother : ∀ j, j ≠ r.id → ∀ t, tables.Holds j t ↔ db.tags.Holds j t)
    (hself : ∀ t, tables.Holds r.id t → db.tags.Holds r.id t) :
    Represents wc keys { db with items := items, tags := tables }
      (Function.update m (type, name) none) := by
  obtain ⟨hmem, ht, hn⟩ := SQLiteStorage.selectItem_eq_some_iff.mp hr
  refine ⟨fun s hs => ?_, fun type₁ name₁ e₁ he₁ => ?_, fun j t hj => ?_⟩
  · obtain ⟨hs, hne⟩ := (hitems s).mp hs
    obtain ⟨type₁, name₁, e₁, he₁, hs₁⟩ := h.row s hs
    have hk : (type₁, name₁) ≠ (type, name) := by
      intro hk
      cases hk
      exact hne (db.items.eq_of_conflict SQLiteStorage.ItemRow.conflict_symm hs hmem
        (.inr ⟨hs₁.type_eq.trans ht.symm, hs₁.name_eq.trans hn.symm⟩))
    have hidne : s.id ≠ r.id := fun hi => hne (SQLiteStorage.eq_of_id_eq hs hmem hi)
    refine ⟨type₁, name₁, e₁, (Function.update_of_ne hk ..).trans he₁, ⟨hs₁.type_eq,
      hs₁.name_eq, hs₁.value, fun tag => ?_⟩⟩
    exact (hother s.id hidne tag).trans (hs₁.tags tag)
  · have hk : (type₁, name₁) ≠ (type, name) := by
      intro hk
      rw [hk, Function.update_self] at he₁
      cases he₁
    rw [Function.update_of_ne hk] at he₁
    obtain ⟨s, hs, hst, hsn⟩ := h.entry type₁ name₁ e₁ he₁
    refine ⟨s, (hitems s).mpr ⟨hs, fun he => hk ?_⟩, hst, hsn⟩
    subst he
    rw [(encryptType_inj wc keys).mp (hst.symm.trans ht),
      (encryptName_inj wc keys).mp (hsn.symm.trans hn)]
  · by_cases hj' : j = r.id
    · rw [hj'] at hj
      exact h.encrypted _ t (hself t hj)
    · exact h.encrypted j t ((hother j hj' t).mp hj)

theorem tagsAre_of_mem {tags : AssocMap String String}
    (h : ∀ t, tables.Holds itemId t ↔ t ∈ encryptTags wc keys tags) :
    TagsAre wc keys tables itemId (fun n => tags.lookup n) :=
  fun t => (h t).trans (mem_encryptTags wc keys)

theorem tagsAre_overlay {old : String → Option String} (h : TagsAre wc keys tables itemId old)
    (tags : AssocMap String String) :
    TagsAre wc keys (tables.insertOrReplaceTags itemId (encryptTags wc keys tags)) itemId
      (RecordMap.overlay (fun n => tags.lookup n) old) := by
  intro t
  rw [TagTables.insertOrReplaceTags_holds (pairwise_encryptTags wc keys tags), h t,
    mem_encryptTags]
  constructor
  · rintro (⟨-, n, v, hn, rfl⟩ | ⟨⟨n, v, hn, rfl⟩, hnot⟩)
    · exact ⟨n, v, by simp [RecordMap.overlay, hn], rfl⟩
    · refine ⟨n, v, ?_, rfl⟩
      cases hl : tags.lookup n with
      | none => simpa [RecordMap.overlay, hl] using hn
      | some v' =>
        refine absurd ⟨rfl, _, (mem_encryptTags wc keys).mpr ⟨n, v', hl, rfl⟩, ?_⟩ hnot
        rw [encryptTag_name, encryptTag_name]
  · rintro ⟨n, v, hn, rfl⟩
    cases hl : tags.lookup n with
    | some v' =>
      rw [RecordMap.overlay, hl, some_or, Option.some.injEq] at hn
      exact .inl ⟨rfl, n, v', hl, by rw [hn]⟩
    | none =>
      rw [RecordMap.overlay, hl, none_or] at hn
      refine .inr ⟨⟨n, v, hn, rfl⟩, ?_⟩
      rintro ⟨-, s, hs, he⟩
      obtain ⟨n', v', hl', rfl⟩ := (mem_encryptTags wc keys).mp hs
      rw [encryptTag_name, encryptTag_name, encryptTagName_inj] at he
      rw [he, hl'] at hl
      cases hl

theorem tagsAre_deleteTags {old : String → Option String} (h : TagsAre wc keys tables itemId old)
    (names : List String) :
    TagsAre wc keys (tables.deleteTags itemId (encryptTagNames wc keys names)) itemId
      (fun n => if n ∈ names then none else old n) := by
  have hmem : ∀ n, encryptTagName wc keys n ∈ encryptTagNames wc keys names ↔ n ∈ names := by
    intro n
    simp only [encryptTagNames, List.mem_map, encryptTagName_inj, exists_eq_right]
  intro t
  rw [TagTables.deleteTags_holds, h t]
  constructor
  · rintro ⟨⟨n, v, hn, rfl⟩, hnot⟩
    rw [encryptTag_name, hmem] at hnot
    exact ⟨n, v, by simpa [show n ∉ names from fun hn' => hnot ⟨rfl, hn'⟩] using hn, rfl⟩
  · rintro ⟨n, v, hn, rfl⟩
    rw [encryptTag_name, hmem]
    dsimp only at hn
    split_ifs at hn with hn'
    exact ⟨⟨n, v, hn, rfl⟩, fun hc => hn' hc.2⟩

/-- What a call of the storage leaves behind, and its outcome, are those of the record map. -/
def CallRefines (wc : WalletCrypto) (keys : Keys) (call : StorageCall Unit) (db : Db)
    (answer : RecordMap.Result × RecordMap) : Prop :=
  Agrees ((fun _ => Reply.done) <$> (call db).1) answer.1 ∧
    Represents wc keys (call db).2 answer.2

theorem callRefines_change (h : Represents wc keys db m) {f : Entry → Entry}
    {call : StorageCall Unit}
    (hnone : SQLiteStorage.selectItem db (encryptType wc keys type) (encryptName wc keys name) =
      none → ∃ e, call db = (.err e, db) ∧ e.kind = .walletItemNotFound)
    (hsome : ∀ r e, SQLiteStorage.selectItem db (encryptType wc keys type)
      (encryptName wc keys name) = some r → Stores wc keys db.tags r type name e →
      ∃ db', call db = (.ok (), db') ∧
        Represents wc keys db' (Function.update m (type, name) (some (f e)))) :
    CallRefines wc keys call db (m.change type name f) := by
  cases hm : m (type, name) with
  | none =>
    obtain ⟨e, hc, hk⟩ := hnone (h.selectItem_of_none hm)
    rw [RecordMap.change, hm, CallRefines, hc]
    exact ⟨hk, h⟩
  | some e =>
    obtain ⟨r, hr, hs⟩ := h.selectItem_of_some hm
    obtain ⟨db', hc, hrep⟩ := hsome r e hr hs
    rw [RecordMap.change, hm, CallRefines, hc]
    exact ⟨trivial, hrep⟩

theorem update_refines (h : Represents wc keys db m) (type name newValue : String)
    (random : ValueRandomness) :
    CallRefines wc keys (update wc keys type name newValue random) db
      (m.change type name (fun e => { e with value := newValue })) := by
  refine callRefines_change h (fun hn => ?_) (fun r e hr hs => ?_)
  · exact ⟨_, SQLiteStorage.update_of_none hn _, rfl⟩
  · obtain ⟨items, hu, hitems⟩ := SQLiteStorage.update_of_some hr
      (EncryptedValue.encrypt wc newValue keys.valueKey random)
    refine ⟨_, hu, h.change hr ?_ hitems (fun _ _ _ => Iff.rfl) ?_⟩
    · rfl
    · exact ⟨hs.type_eq, hs.name_eq, EncryptedValue.decrypt_encrypt wc newValue keys.valueKey
        random, hs.tags⟩

theorem mem_rows_self (hr : r ∈ db.items.rows) (s : ItemRow) :
    s ∈ db.items.rows ↔ s = r ∨ (s ∈ db.items.rows ∧ s ≠ r) := by
  by_cases h : s = r
  · simp [h, hr]
  · simp [h]

theorem addTags_refines (h : Represents wc keys db m) (type name : String)
    (tags : AssocMap String String) :
    CallRefines wc keys (addTags wc keys type name tags) db (m.change type name
      (fun e => { e with tags := RecordMap.overlay (fun n => tags.lookup n) e.tags })) := by
  refine callRefines_change h (fun hn => ?_) (fun r e hr hs => ?_)
  · exact ⟨errMsg .walletItemNotFound "Item to update not found",
      by simp only [addTags, SQLiteStorage.addTags, transaction, hn, ofOption_none,
        err_bind], rfl⟩
  · refine ⟨{ db with tags := db.tags.insertOrReplaceTags r.id (encryptTags wc keys tags) },
      by simp only [addTags, SQLiteStorage.addTags, transaction, hr, ofOption_some,
        ok_bind, Outcome.pure_eq_ok], ?_⟩
    have hmem := (SQLiteStorage.selectItem_eq_some_iff.mp hr).1
    refine h.change hr rfl (mem_rows_self hmem) (fun j hj t => ?_)
      ⟨hs.type_eq, hs.name_eq, hs.value, tagsAre_overlay hs.tags tags⟩
    rw [TagTables.insertOrReplaceTags_holds (pairwise_encryptTags wc keys tags)]
    simp [hj]

theorem updateTags_refines (h : Represents wc keys db m) (type name : String)
    (tags : AssocMap String String) :
    CallRefines wc keys (updateTags wc keys type name tags) db
      (m.change type name (fun e => { e with tags := fun n => tags.lookup n })) := by
  refine callRefines_change h (fun hn => ?_) (fun r e hr hs => ?_)
  · exact ⟨errMsg .walletItemNotFound "Item to update not found",
      by simp only [updateTags, SQLiteStorage.updateTags, transaction, hn, ofOption_none,
        err_bind], rfl⟩
  · have hnone : ∀ t, ¬ (db.tags.deleteTagsOf r.id).Holds r.id t := fun t ht =>
      ((TagTables.deleteTagsOf_holds r.id r.id t).mp ht).2 rfl
    obtain ⟨tables, hi, hholds⟩ := TagTables.insertTags_eq_ok (pairwise_encryptTags wc keys tags)
      (fun s hs => absurd hs (hnone s))
    refine ⟨{ db with tags := tables },
      by simp only [updateTags, SQLiteStorage.updateTags, transaction, hr, ofOption_some,
        ok_bind, hi, Outcome.pure_eq_ok], ?_⟩
    have hmem := (SQLiteStorage.selectItem_eq_some_iff.mp hr).1
    refine h.change hr rfl (mem_rows_self hmem) (fun j hj t => ?_)
      ⟨hs.type_eq, hs.name_eq, hs.value, tagsAre_of_mem (fun t => ?_)⟩
    · rw [hholds, TagTables.deleteTagsOf_holds]
      simp [hj]
    · rw [hholds]
      simp [hnone t]

theorem deleteTags_refines (h : Represents wc keys db m) (type name : String)
    (tagNames : List String) :
    CallRefines wc keys (deleteTags wc keys type name tagNames) db (m.change type name
      (fun e => { e with tags := fun n => if n ∈ tagNames then none else e.tags n })) := by
  refine callRefines_change h (fun hn => ?_) (fun r e hr hs => ?_)
  · exact ⟨errMsg .walletItemNotFound "Item to delete not found",
      by simp only [deleteTags, SQLiteStorage.deleteTags, hn], rfl⟩
  · refine ⟨{ db with tags := db.tags.deleteTags r.id (encryptTagNames wc keys tagNames) },
      by simp only [deleteTags, SQLiteStorage.deleteTags, transaction, hr,
        Outcome.pure_eq_ok], ?_⟩
    have hmem := (SQLiteStorage.selectItem_eq_some_iff.mp hr).1
    refine h.change hr rfl (mem_rows_self hmem) (fun j hj t => ?_)
      ⟨hs.type_eq, hs.name_eq, hs.value, tagsAre_deleteTags hs.tags tagNames⟩
    rw [TagTables.deleteTags_holds]
    simp [hj]

theorem delete_refines (h : Represents wc keys db m) (conn : Connection) (type name : String)
    {random : ValueRandomness} (fromStr : RecordOptionsReader) :
    CallRefines wc keys (delete wc keys conn type name) db
      (RecordMap.step fromStr ⟨.delete type name, random⟩ m) := by
  cases hm : m (type, name) with
  | none =>
    simp only [RecordMap.step, hm, CallRefines, delete,
      SQLiteStorage.delete_of_none (h.selectItem_of_none hm)]
    exact ⟨rfl, h⟩
  | some e =>
    obtain ⟨r, hr, -⟩ := h.selectItem_of_some hm
    obtain ⟨items, tables, hd, hitems, hholds⟩ := SQLiteStorage.delete_of_some hr conn
    simp only [RecordMap.step, hm, CallRefines, delete, hd]
    refine ⟨trivial, h.erase hr hitems (fun j hj t => ?_) (fun t ht => ((hholds _ t).mp ht).1)⟩
    rw [hholds]
    exact ⟨And.left, fun ht => ⟨ht, fun _ => hj⟩⟩

/-- No tag is stored under the row id that the next new item gets. -/
def NextRowFree (db : Db) : Prop := ∀ tag, ¬ db.tags.Holds (SQLiteStorage.rowIdOf db) tag

theorem add_refines_of_some (h : Represents wc keys db m) (hm : m (type, name) = some e)
    (value : String) (tags : AssocMap String String) (random : ValueRandomness)
    (fromStr : RecordOptionsReader) :
    CallRefines wc keys (add wc keys type name value tags random) db
      (RecordMap.step fromStr ⟨.add type name value tags, random⟩ m) := by
  obtain ⟨r, hr, -⟩ := h.selectItem_of_some hm
  simp only [RecordMap.step, hm, CallRefines, add, SQLiteStorage.add_of_some hr]
  exact ⟨rfl, h⟩

theorem exists_tagsAre (h : ∀ tag, tables.Holds itemId tag → ∃ n v, tag = encryptTag wc keys n v) :
    ∃ tags, TagsAre wc keys tables itemId tags := by
  classical
  refine ⟨fun n => if hn : ∃ v, tables.Holds itemId (encryptTag wc keys n v)
    then some hn.choose else none, fun tag => ?_⟩
  constructor
  · intro ht
    obtain ⟨n, v, rfl⟩ := h tag ht
    have hn : ∃ v, tables.Holds itemId (encryptTag wc keys n v) := ⟨v, ht⟩
    exact ⟨n, hn.choose, dif_pos hn, ht.eq_of_name_eq hn.choose_spec (by simp)⟩
  · rintro ⟨n, v, hn, rfl⟩
    dsimp only at hn
    split_ifs at hn with hv
    cases hn
    exact hv.choose_spec

/-- What `add` does under a new key when `stale` tags are stored under the next row id: it is
refused when a given tag has the name of a stale one, and otherwise the record has both. -/
theorem add_cases (h : Represents wc keys db m) (hm : m (type, name) = none)
    {stale : String → Option String} (hs : TagsAre wc keys db.tags (SQLiteStorage.rowIdOf db) stale)
    (value : String) (tags : AssocMap String String) (random : ValueRandomness) :
    ((∃ n, (stale n).isSome ∧ (tags.lookup n).isSome) ∧
        ∃ e, (add wc keys type name value tags random db).1 = .err e) ∨
      ((∀ n, (stale n).isSome → tags.lookup n = none) ∧
        ∃ db', add wc keys type name value tags random db = (.ok (), db') ∧
          Represents wc keys db' (Function.update m (type, name)
            (some ⟨value, RecordMap.overlay (fun n => tags.lookup n) stale⟩))) := by
  obtain ⟨items, hitems, hadd⟩ := SQLiteStorage.add_of_none (h.selectItem_of_none hm)
    (EncryptedValue.encrypt wc value keys.valueKey random) (encryptTags wc keys tags)
  by_cases hc : ∃ n, (stale n).isSome ∧ (tags.lookup n).isSome
  · refine .inl ⟨hc, ?_⟩
    obtain ⟨n, hn, hn'⟩ := hc
    obtain ⟨v, hv⟩ := isSome_iff_exists.mp hn
    obtain ⟨v', hv'⟩ := isSome_iff_exists.mp hn'
    rcases TagTables.insertTags_cases db.tags (SQLiteStorage.rowIdOf db)
      (encryptTags wc keys tags) with hi | ⟨tables, hi⟩
    · rw [hi] at hadd
      exact ⟨_, congrArg Prod.fst hadd⟩
    · refine absurd ?_ ((TagTables.insertTags_ok hi).2 _ ((hs _).mpr ⟨n, v, hv, rfl⟩) _
        ((mem_encryptTags wc keys).mpr ⟨n, v', hv', rfl⟩))
      rw [encryptTag_name, encryptTag_name]
  · have hnone : ∀ n, (stale n).isSome → tags.lookup n = none := fun n hn =>
      not_isSome_iff_eq_none.mp (fun hn' => hc ⟨n, hn, hn'⟩)
    refine .inr ⟨hnone, ?_⟩
    have hfree : ∀ s, db.tags.Holds (SQLiteStorage.rowIdOf db) s →
        ∀ t ∈ encryptTags wc keys tags, s.name ≠ t.name := by
      intro s hst t ht he
      obtain ⟨n, v, hv, rfl⟩ := (hs s).mp hst
      obtain ⟨n', v', hv', rfl⟩ := (mem_encryptTags wc keys).mp ht
      rw [encryptTag_name, encryptTag_name, encryptTagName_inj] at he
      rw [← he, hnone n (isSome_of_eq_some hv)] at hv'
      cases hv'
    obtain ⟨tables, hi, hholds⟩ :=
      TagTables.insertTags_eq_ok (pairwise_encryptTags wc keys tags) hfree
    rw [hi] at hadd
    refine ⟨_, hadd, h.insert hm hitems (fun s hs => SQLiteStorage.rowIdOf_ne hs)
      (fun j hj t => ?_) ⟨rfl, rfl, EncryptedValue.decrypt_encrypt wc value keys.valueKey random,
        fun t => ?_⟩⟩
    · rw [hholds]
      simp [hj]
    · rw [hholds, hs t, mem_encryptTags]
      constructor
      · rintro (⟨n, v, hv, rfl⟩ | ⟨-, n, v, hv, rfl⟩)
        · refine ⟨n, v, ?_, rfl⟩
          simp only [RecordMap.overlay, hnone n (isSome_of_eq_some hv), none_or, hv]
        · exact ⟨n, v, by simp only [RecordMap.overlay, hv, some_or], rfl⟩
      · rintro ⟨n, v, hv, rfl⟩
        cases hl : tags.lookup n with
        | some v' =>
          simp only [RecordMap.overlay, hl, some_or] at hv
          exact .inr ⟨rfl, n, v, hl.trans hv, rfl⟩
        | none =>
          simp only [RecordMap.overlay, hl, none_or] at hv
          exact .inl ⟨n, v, hv, rfl⟩

/-- The record an item decrypts to. -/
def decryptItem (wc : WalletCrypto) (keys : Keys) (order : IterationOrder) (db : Db)
    (r : ItemRow) : IndyResult WalletRecord :=
  decryptStorageRecord wc keys ⟨r.name, some ⟨r.value, r.key⟩, some r.type,
    some (SQLiteStorage.retrieve order db r.id)⟩

theorem decryptTags_retrieve {tags : String → Option String}
    (ht : TagsAre wc keys db.tags itemId tags) {etags : List Tag}
    (hp : etags.Pairwise (fun s t => s.name ≠ t.name))
    (hmem : ∀ t, t ∈ etags ↔ db.tags.Holds itemId t) :
    ∃ m, decryptTags wc keys (some etags) = .ok (some m) ∧ (fun n => m.lookup n) = tags := by
  obtain ⟨m, hm, hl⟩ := decryptTags_of_decrypts wc keys hp (fun t => (hmem t).trans (ht t))
  exact ⟨m, hm, funext hl⟩

theorem decryptItem_of_stores {order : IterationOrder} {db : Db} {r : ItemRow}
    {type name : String} {e : Entry} (hs : Stores wc keys db.tags r type name e) :
    ∃ record, decryptItem wc keys order db r = .ok record ∧
      record.view = RecordMap.fullRecord type name e := by
  obtain ⟨m, hm, hl⟩ := decryptTags_retrieve hs.tags
    (TagTables.pairwise_retrieve order r.id) (fun t => TagTables.mem_retrieve)
  refine ⟨⟨some type, name, some e.value, some m⟩, ?_, ?_⟩
  · simp only [decryptItem, decryptStorageRecord, hs.type_eq, hs.name_eq, encryptType, encryptName,
      decryptMerged_encryptAsSearchable, ok_bind, Bytes.toText_ofText,
      ofOption_some, hs.value, map_ok, SQLiteStorage.retrieve, hm,
      Outcome.pure_eq_ok]
  · simp only [WalletRecord.view, RecordMap.fullRecord, map_some, hl]

theorem nodup_rows (db : Db) : db.items.rows.Nodup :=
  db.items.pairwise.imp (fun h he => h (.inl (congrArg ItemRow.id he)))

theorem fullRecord_inj {type' name' : String} {e' : Entry}
    (h : RecordMap.fullRecord type name e = RecordMap.fullRecord type' name' e') :
    type = type' ∧ name = name' := by
  simp only [RecordMap.fullRecord, Record.mk.injEq, Option.some.injEq] at h
  exact ⟨h.1, h.2.1⟩

theorem getAll_lists {order : IterationOrder} {db : Db} {m : RecordMap}
    (h : Represents wc keys db m) : ∃ records, getAll wc keys order db = .ok records ∧
      RecordMap.Lists (records.map WalletRecord.view) m := by
  have hrows : ∀ r ∈ order.order db.items.rows, ∃ record, decryptItem wc keys order db r =
      .ok record ∧ ∃ type name e, m (type, name) = some e ∧
        Stores wc keys db.tags r type name e ∧
        record.view = RecordMap.fullRecord type name e := by
    intro r hr
    obtain ⟨type, name, e, he, hs⟩ := h.row r (order.mem_order.mp hr)
    obtain ⟨record, hrec, hv⟩ := @decryptItem_of_stores _ _ order _ _ _ _ _ hs
    exact ⟨record, hrec, type, name, e, he, hs, hv⟩
  obtain ⟨g, hg, hspec⟩ := Outcome.exists_mapM_eq hrows
  refine ⟨_, (List.mapM_map.trans hg), ?_, fun record => ?_⟩
  · rw [List.map_map]
    refine List.Nodup.map_on ?_ ((order.perm _).nodup_iff.mpr (nodup_rows db))
    intro r hr r' hr' hv
    obtain ⟨type, name, e, -, hs, hg₁⟩ := hspec r hr
    obtain ⟨type', name', e', -, hs', hg₂⟩ := hspec r' hr'
    obtain ⟨rfl, rfl⟩ := fullRecord_inj (hg₁.symm.trans (hv.trans hg₂))
    exact db.items.eq_of_conflict SQLiteStorage.ItemRow.conflict_symm
      (order.mem_order.mp hr) (order.mem_order.mp hr')
      (.inr ⟨hs.type_eq.trans hs'.type_eq.symm, hs.name_eq.trans hs'.name_eq.symm⟩)
  · rw [List.map_map, List.mem_map]
    constructor
    · rintro ⟨r, hr, rfl⟩
      obtain ⟨type, name, e, he, -, hv⟩ := hspec r hr
      exact ⟨type, name, e, he, hv⟩
    · rintro ⟨type, name, e, he, rfl⟩
      obtain ⟨r, hr, hs⟩ := h.selectItem_of_some he
      obtain ⟨hmem, -, -⟩ := SQLiteStorage.selectItem_eq_some_iff.mp hr
      obtain ⟨type', name', e', he', hs', hv⟩ := hspec r (order.mem_order.mpr hmem)
      obtain ⟨rfl, rfl⟩ := hs'.key_inj hs.type_eq hs.name_eq
      cases he.symm.trans he'
      exact ⟨r, order.mem_order.mpr hmem, hv⟩

theorem readRecordOptions_cases (fromStr : RecordOptionsReader) (options : String) :
    (∃ o, readRecordOptions fromStr options = .ok o) ∨
      ∃ e, readRecordOptions fromStr options = .err e ∧ e.kind = .invalidStructure := by
  rw [readRecordOptions]
  split_ifs with h
  · exact .inl ⟨_, rfl⟩
  · cases fromStr options with
    | none => exact .inr ⟨_, rfl, rfl⟩
    | some o => exact .inl ⟨o, rfl⟩

theorem get_refines {fromStr : RecordOptionsReader} {order : IterationOrder}
    (h : Represents wc keys db m) (type name options : String) :
    Agrees (Reply.record <$> get wc keys fromStr order type name options db)
      (RecordMap.lookupRecord fromStr m type name options) := by
  rcases readRecordOptions_cases fromStr options with ⟨o, ho⟩ | ⟨e, he, hk⟩
  · cases hm : m (type, name) with
    | none =>
      simp only [get, SQLiteStorage.get, RecordMap.lookupRecord, ho, hm, ok_bind,
        h.selectItem_of_none hm, ofOption_none, err_bind, map_err]
      rfl
    | some e =>
      obtain ⟨r, hr, hs⟩ := h.selectItem_of_some hm
      obtain ⟨tags, htags, hl⟩ := decryptTags_retrieve hs.tags
        (TagTables.pairwise_select order r.id) (fun t => TagTables.mem_select)
      simp only [get, SQLiteStorage.get, RecordMap.lookupRecord, ho, hm, ok_bind, hr,
        ofOption_some, Outcome.pure_eq_ok]
      have hnone : decryptTags wc keys none = .ok none := rfl
      obtain ⟨rt, rv, rg⟩ := o
      cases rt <;> cases rv <;> cases rg <;>
        simp only [Bool.false_eq_true, if_true, if_false, hs.value, htags, hnone, map_ok,
          ok_bind, Agrees, WalletRecord.view, hl, map_some, map_none]
  · simp only [get, SQLiteStorage.get, RecordMap.lookupRecord, he, err_bind,
      map_err]
    exact hk

end IndySdk.Wallet
