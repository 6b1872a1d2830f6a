import IndySdk.QueryShape
import IndySdk.WalletRuns

/-!
# Searches of the default storage

A search encrypts the parsed query, compiles it, and runs the text with its arguments on the
tables of the storage. It lists exactly the records of the type that satisfy the query when the
query compiles to an operand, or is left out of the text because it asks for nothing.
-/

namespace IndySdk.Wallet.Language

open List Option

variable (overflowChecks : Bool)

def typeTokens : List Sql.Token := [.ident "i", .dot, .ident "type", .eq, .param]

/-- A statement up to its condition on the type. -/
structure Head (text : String) (projection : Sql.Projection) (ts : List Sql.Token) : Prop where
  lexes : Sql.Lexes text (ts ++ typeTokens)
  count : text.toList.count '?' = 1
  parses : ∀ rest, Sql.parseSelect (ts ++ rest) =
    (Sql.parseCond rest).map (⟨projection, "items", "i", ·⟩)

def itemColumns : List String := ["id", "name", "value", "key", "type"]

def selectHead : List Sql.Token :=
  [.select, .ident "i", .dot, .ident "id", .comma, .ident "i", .dot, .ident "name", .comma,
    .ident "i", .dot, .ident "value", .comma, .ident "i", .dot, .ident "key", .comma,
    .ident "i", .dot, .ident "type", .from, .ident "items", .as, .ident "i", .where]

def countHead : List Sql.Token :=
  [.select, .ident "count", .lparen, .star, .rparen, .from, .ident "items", .as, .ident "i",
    .where]

theorem head_select : Head
    "SELECT i.id, i.name, i.value, i.key, i.type FROM items as i WHERE i.type = ?"
    (.columns itemColumns) selectHead := by
  refine ⟨?_, ?_, fun rest => ?_⟩
  · rw [Sql.Lexes, String.toList_ofList]
    decide +kernel
  · rw [String.toList_ofList]
    rfl
  simp [selectHead, Sql.parseSelect, Sql.parseProjection, Sql.parseColumns, itemColumns]
  cases Sql.parseCond rest <;> rfl

theorem head_count : Head "SELECT count(*) FROM items as i WHERE i.type = ?" .count
    countHead := by
  refine ⟨?_, ?_, fun rest => ?_⟩
  · rw [Sql.Lexes, String.toList_ofList]
    rfl
  · rw [String.toList_ofList]
    rfl
  simp [countHead, Sql.parseSelect, Sql.parseProjection]
  cases Sql.parseCond rest <;> rfl

def typeCond : Sql.Cond Unit := .compare .eq (.column (some "i") "type") (.param ())

theorem parseCond_type : Sql.parseCond typeTokens = some typeCond := by
  rfl

theorem parseCond_and {c : ClauseSpec} (h : Parses c) :
    Sql.parseCond (typeTokens ++ .and :: c.tokens) = c.cond.map (.and typeCond) := by
  have hfuel : Sql.parseFuel (typeTokens ++ .and :: c.tokens) = 6 * c.tokens.length + 38 + 4 := by
    simp only [Sql.parseFuel, typeTokens, length_append, length_cons, length_nil]
    omega
  have hends : Ends [] := fun t ht => by cases ht
  have hc := h (6 * c.tokens.length + 38 + 1) [] hends (by omega)
  rw [append_nil] at hc
  rw [Sql.parseCond, hfuel]
  simp only [typeTokens, cons_append, nil_append, Sql.parseOr, Sql.parseAnd,
    Sql.parseNot, Sql.parsePrimary, Sql.parseScalar, Sql.compareOp, Sql.parseAndRest,
    bind_eq_bind, bind_some, hc]
  cases c.cond with
  | none => rfl
  | some d => rfl

/-- The rows a statement over the items selects. -/
def selected (db : Db) (p : ItemRow → Bool) : List ItemRow := db.items.rows.filter p

def itemValues (r : ItemRow) : List Sql.Value :=
  [.int r.id, .blob r.name, .blob r.value, .blob r.key, .blob r.type]

/-- What a statement over the items answers. -/
def answer (projection : Sql.Projection) (rows : List ItemRow) : Option (List (List Sql.Value)) :=
  match projection with
  | .count => some [[.int rows.length]]
  | .columns names => rows.mapM (fun r => names.mapM (itemRow r))

theorem answer_columns (rows : List ItemRow) :
    answer (.columns itemColumns) rows = some (rows.map itemValues) :=
  Sql.mapM_eq_some (fun _ _ => rfl)

variable (like : String → String → Bool) (db : Db)

theorem decides_type (type : Bytes) {r : ItemRow} :
    Sql.evalCond like (sqlTables db) [("i", itemRow r)]
      (.compare .eq (.column (some "i") "type") (.param (.blob type))) =
        some (decide (r.type = type)) := by
  simp [Sql.evalCond, Sql.evalScalar, itemRow, Sql.CompareOp.eval]

theorem query_empty {text : String} {projection : Sql.Projection} {ts : List Sql.Token}
    (hh : Head text projection ts) (type : Bytes) :
    Sql.query like (sqlTables db) text [.blob type] =
      answer projection (selected db (fun r => r.type = type)) := by
  have hparse : Sql.parseSelect (ts ++ typeTokens) = some ⟨projection, "items", "i", typeCond⟩ := by
    rw [hh.parses, parseCond_type, map_some]
  have hbind : (Sql.Select.mk projection "items" "i" typeCond).bind [Sql.Value.blob type] =
      some ⟨projection, "items", "i",
        .compare .eq (.column (some "i") "type") (.param (.blob type))⟩ := rfl
  rw [Sql.query, hh.lexes.tokens_eq]
  simp only [bind_eq_bind, bind_some, hparse, hbind]
  exact Sql.Select.eval_eq rfl (fun r _ => decides_type like db type)

theorem query_clause {text clauseText : String} {projection : Sql.Projection}
    {ts : List Sql.Token} (hh : Head text projection ts) {o : Operator} (ho : o.Sealed)
    (hl : Sql.Lexes clauseText o.clause.tokens) (type : Bytes) :
    Sql.query like (sqlTables db) (text ++ " AND " ++ clauseText)
      (.blob type :: o.clause.arguments) =
        if o.clause.cond.isSome then
          answer projection (selected db (fun r => decide (r.type = type) &&
            o.matches like db.tags r.id))
        else none := by
  have hand : Sql.Lexes " AND " [.and] := by decide
  have htokens := ((hh.lexes.append hand).append hl).tokens_eq
  have hparse : Sql.parseSelect (ts ++ typeTokens ++ [.and] ++ o.clause.tokens) =
      (o.clause.cond.map (.and typeCond)).map (⟨projection, "items", "i", ·⟩) := by
    rw [append_assoc, append_assoc, hh.parses, singleton_append,
      parseCond_and (parses_of_sealed ho)]
  rw [Sql.query, htokens]
  simp only [bind_eq_bind, bind_some, hparse]
  cases hc : o.clause.cond with
  | none => rfl
  | some k =>
    obtain ⟨b, hb, hp⟩ := @decides_of_sealed like db o ho k hc
    have hbind : (Sql.Select.mk projection "items" "i" (.and typeCond k)).bind
        (.blob type :: o.clause.arguments) = some ⟨projection, "items", "i",
          .and (.compare .eq (.column (some "i") "type") (.param (.blob type))) b⟩ := by
      have hb := hb []
      rw [append_nil] at hb
      simp only [Sql.Select.bind, Sql.bindCond, typeCond, Sql.bindScalar, bind_eq_bind,
        bind_some, hb, if_true]
    simp only [map_some, bind_some, hbind, isSome_some, if_true]
    refine Sql.Select.eval_eq rfl (fun r _ => ?_)
    rw [Sql.evalCond, decides_type, hp]
    rfl

/-- A statement with as many placeholders as arguments. -/
structure WellFormed (sql : String) (arguments : List Sql.Value) : Prop where
  count : sql.toList.count '?' = arguments.length
  parses : ((Sql.tokens sql).bind Sql.parseSelect).isSome

variable {db} (wc : WalletCrypto) (keys : Keys)

/-- The rows are those of the records of the type that satisfy the query. -/
structure Selects (db : Db) (m : RecordMap) (type : String) (query : Json)
    (items : List ItemRow) : Prop where
  nodup : items.Nodup
  mem : ∀ r, r ∈ items ↔ r ∈ db.items.rows ∧ ∃ name e, m (type, name) = some e ∧
    Stores wc keys db.tags r type name e ∧ holdsQuery like e.tags query
  complete : ∀ name e, m (type, name) = some e → holdsQuery like e.tags query →
    ∃ r ∈ items, Stores wc keys db.tags r type name e

/-- The search and the count of a parsed query answer as the query asks. -/
structure Answers (db : Db) (m : RecordMap) (type : String) (query : Json) (op encrypted : Operator)
    (items : List ItemRow) (sql countSql : String) (arguments countArguments : List Sql.Value) :
    Prop where
  encrypt : encryptQuery wc keys op = .ok encrypted
  compile : wqlToSql overflowChecks (encryptType wc keys type) encrypted = .ok (sql, arguments)
  compileCount : wqlToSqlCount overflowChecks (encryptType wc keys type) encrypted =
    .ok (countSql, countArguments)
  wellFormed : WellFormed sql arguments
  wellFormedCount : WellFormed countSql countArguments
  select : Sql.query like (sqlTables db) sql arguments = some (items.map itemValues)
  count : Sql.query like (sqlTables db) countSql countArguments = some [[.int items.length]]
  selects : Selects like wc keys db m type query items

variable {wc keys like} {m : RecordMap} {type : String} {query : Json}

theorem selects_filter (h : Represents wc keys db m) {p : ItemRow → Bool}
    (hp : ∀ r name e, m (type, name) = some e → Stores wc keys db.tags r type name e →
      p r = holdsQuery like e.tags query) :
    Selects like wc keys db m type query
      (selected db (fun r => decide (r.type = encryptType wc keys type) && p r)) := by
  have hmem : ∀ r, r ∈ selected db (fun r => decide (r.type = encryptType wc keys type) && p r) ↔
      r ∈ db.items.rows ∧ ∃ name e, m (type, name) = some e ∧
        Stores wc keys db.tags r type name e ∧ holdsQuery like e.tags query := by
    intro r
    rw [selected, mem_filter, Bool.and_eq_true, decide_eq_true_eq]
    refine and_congr_right (fun hr => ⟨?_, ?_⟩)
    · rintro ⟨ht, hpr⟩
      obtain ⟨type', name, e, he, hs⟩ := h.row r hr
      cases (encryptType_inj wc keys).mp (hs.type_eq.symm.trans ht)
      exact ⟨name, e, he, hs, (hp r name e he hs) ▸ hpr⟩
    · rintro ⟨name, e, he, hs, hq⟩
      exact ⟨hs.type_eq, (hp r name e he hs).trans hq⟩
  refine ⟨?_, hmem, fun name e he hq => ?_⟩
  · have hrefl : ∀ r : ItemRow, r.conflict r := fun r => .inl rfl
    exact (db.items.nodup hrefl).filter _
  · obtain ⟨r, hr, hs⟩ := h.selectItem_of_some he
    have hr := (SQLiteStorage.selectItem_eq_some_iff.mp hr).1
    exact ⟨r, (hmem r).mpr ⟨hr, name, e, he, hs, hq⟩, hs⟩

theorem compiled_head {text : String} {projection : Sql.Projection} {ts : List Sql.Token}
    (hh : Head text projection ts) {o : Operator} (ho : o.Sealed)
    (hu : o.underflows overflowChecks = false) (type : Bytes) :
    ∃ sql, (operatorToSql overflowChecks o [.blob type] >>= fun c =>
        pure (appendClause text c.1, c.2)) =
          (.ok (sql, .blob type :: o.clause.arguments) : Clause) ∧
      sql.toList.count '?' = (Sql.Value.blob type :: o.clause.arguments).length ∧
      Sql.query like (sqlTables db) sql (.blob type :: o.clause.arguments) =
        if o.clause.tokens = [] then answer projection (selected db (fun r => r.type = type))
        else if o.clause.cond.isSome then
          answer projection (selected db (fun r => decide (r.type = type) &&
            o.matches like db.tags r.id))
        else none := by
  have hc := compiled_of_sealed overflowChecks ho
  rw [Compiled, if_neg (by simp [hu])] at hc
  obtain ⟨clauseText, hemits, hc⟩ := hc
  refine ⟨appendClause text clauseText, by rw [hc]; rfl, ?_⟩
  by_cases ht : o.clause.tokens = []
  · have hempty := hemits.empty.mpr ht
    have hargs : o.clause.arguments = [] := by
      have hcount := hemits.count
      rw [hempty] at hcount
      exact length_eq_zero_iff.mp hcount.symm
    rw [appendClause, if_pos hempty, if_pos ht, hargs]
    exact ⟨hh.count, query_empty like db hh type⟩
  · have hempty := fun he => ht (hemits.empty.mp he)
    have hand : " AND ".toList.count '?' = 0 := by decide
    rw [appendClause, if_neg hempty, if_neg ht]
    refine ⟨?_, query_clause like db hh ho hemits.lexes type⟩
    rw [String.toList_append, String.toList_append, count_append, count_append, hh.count,
      hemits.count, hand, length_cons, Nat.add_comm 1]

theorem tokens_eq_nil {o : Operator} : o.clause.tokens = [] ↔ o = .and [] ∨ o = .or [] := by
  cases o with
  | and operators => cases operators <;> simp [Operator.clause, Operator.clauses, ClauseSpec.join]
  | or operators => cases operators <;> simp [Operator.clause, Operator.clauses, ClauseSpec.join]
  | not o => simp [Operator.clause, ClauseSpec.not]
  | compare c name value => simp [Operator.clause, compareClause, tagHead]
  | «in» name values => simp [Operator.clause, inClause, tagHead]

theorem itemValues_injective : Function.Injective itemValues := by
  rintro ⟨id, type, name, value, key⟩ ⟨id', type', name', value', key'⟩ h
  simp only [itemValues, List.cons.injEq, Sql.Value.int.injEq, Sql.Value.blob.injEq] at h
  obtain ⟨rfl, rfl, rfl, rfl, rfl, -⟩ := h
  rfl

/-- Some search and count of the parsed query answer as the query asks. -/
def Answered (wc : WalletCrypto) (keys : Keys) (like : String → String → Bool) (db : Db)
    (m : RecordMap) (type : String) (query : Json) (op : Operator) : Prop :=
  ∃ encrypted items sql countSql arguments countArguments, Answers overflowChecks like wc keys db m
    type query op encrypted items sql countSql arguments countArguments

variable {op : Operator}

theorem answered_of_query (hop : op.Parsed)
    (hu : (op.encrypted wc keys).underflows overflowChecks = false) {items : List ItemRow}
    (hs : Selects like wc keys db m type query items) (hrows : ∀ projection,
      (if (op.encrypted wc keys).clause.tokens = [] then
        answer projection (selected db (fun r => r.type = encryptType wc keys type))
      else if (op.encrypted wc keys).clause.cond.isSome then
        answer projection (selected db (fun r => decide (r.type = encryptType wc keys type) &&
          (op.encrypted wc keys).matches like db.tags r.id))
      else none) = answer projection items) :
    Answered overflowChecks wc keys like db m type query op := by
  have hsealed := sealed_encrypted wc keys hop
  obtain ⟨sql, hsql, hcount, hquery⟩ := @compiled_head overflowChecks like db _ _ _ head_select _
    hsealed hu (encryptType wc keys type)
  obtain ⟨sql', hsql', hcount', hquery'⟩ := @compiled_head overflowChecks like db _ _ _ head_count _
    hsealed hu (encryptType wc keys type)
  rw [hrows, answer_columns] at hquery
  rw [hrows] at hquery'
  exact ⟨_, items, sql, sql', _, _, encryptQuery_eq wc keys hop, hsql, hsql',
    ⟨hcount, Sql.parses_of_query hquery⟩, ⟨hcount', Sql.parses_of_query hquery'⟩, hquery, hquery',
    hs⟩

/-- The operator compiles to an operand, or to the empty clause where all records of the type are
asked for. -/
def Operator.Answerable (m : RecordMap) (type : String) (op : Operator) : Prop :=
  op.compiles overflowChecks = true ∨ op = .and [] ∨
    (op = .or [] ∧ ∀ name, m (type, name) = none)

theorem compiles_iff (wc : WalletCrypto) (keys : Keys) (hop : op.Parsed) :
    op.compiles overflowChecks = true ↔
      (op.encrypted wc keys).underflows overflowChecks = false ∧
        (op.encrypted wc keys).clause.cond.isSome = true := by
  rw [← compiles_encrypted overflowChecks wc keys hop,
    compiles_of_sealed overflowChecks (sealed_encrypted wc keys hop), Bool.and_eq_true,
    Bool.not_eq_true']

theorem answered_of_answerable (h : Represents wc keys db m) (hop : op.Parsed)
    (hholds : ∀ tags, op.holds like tags = holdsQuery like tags query)
    (ha : op.Answerable overflowChecks m type) :
    Answered overflowChecks wc keys like db m type query op := by
  have hall : selected db (fun r => r.type = encryptType wc keys type) =
      selected db (fun r => decide (r.type = encryptType wc keys type) && true) := by
    simp only [Bool.and_true]
  rcases ha with hc | rfl | ⟨rfl, hnone⟩
  · obtain ⟨hu, hsome⟩ := (compiles_iff overflowChecks wc keys hop).mp hc
    have hne : (op.encrypted wc keys).clause.tokens ≠ [] := by
      intro ht
      rcases tokens_eq_nil.mp ht with he | he <;> rw [he] at hsome <;> cases hsome
    refine answered_of_query overflowChecks hop hu (selects_filter h
      (p := fun r => (op.encrypted wc keys).matches like db.tags r.id) ?_) (fun projection => ?_)
    · intro r name e _ hs
      rw [encrypted_matches like hs.tags hop, hholds]
    · rw [if_neg hne, if_pos hsome]
  · refine answered_of_query overflowChecks hop rfl (selects_filter h (p := fun _ => true) ?_)
      (fun projection => ?_)
    · intro r name e _ _
      rw [← hholds, Operator.holds, Operator.holdsAll]
    · rw [← hall]
      rfl
  · refine answered_of_query overflowChecks hop rfl (selects_filter h (p := fun _ => true) ?_)
      (fun projection => ?_)
    · intro r name e he _
      rw [hnone] at he
      cases he
    · rw [← hall]
      rfl

theorem wqlToSql_panic {o : Operator} (ho : o.Sealed) (hu : o.underflows overflowChecks = true)
    (type : Bytes) : wqlToSql overflowChecks type o = .panic := by
  have hc := compiled_of_sealed overflowChecks ho
  rw [Compiled, if_pos hu] at hc
  rw [wqlToSql, hc, Outcome.panic_bind]

theorem encrypted_eq_nil :
    (op.encrypted wc keys = .and [] → op = .and []) ∧
      (op.encrypted wc keys = .or [] → op = .or []) := by
  cases op <;> simp [Operator.encrypted]

theorem answerable_of_answered (h : Represents wc keys db m) (hop : op.Parsed)
    (hholds : ∀ tags, op.holds like tags = holdsQuery like tags query)
    (ha : Answered overflowChecks wc keys like db m type query op) :
    op.Answerable overflowChecks m type := by
  obtain ⟨encrypted, items, sql, countSql, arguments, countArguments, ha⟩ := ha
  have hsealed := sealed_encrypted wc keys hop
  cases (encryptQuery_eq wc keys hop).symm.trans ha.encrypt
  cases hu : (op.encrypted wc keys).underflows overflowChecks with
  | true => cases (wqlToSql_panic overflowChecks hsealed hu _).symm.trans ha.compile
  | false =>
    obtain ⟨sql', hsql, -, hquery⟩ := @compiled_head overflowChecks like db _ _ _ head_select _
      hsealed hu (encryptType wc keys type)
    cases hsql.symm.trans ha.compile
    rw [ha.select] at hquery
    split_ifs at hquery with ht hc
    · rcases tokens_eq_nil.mp ht with he | he
      · exact .inr (.inl (encrypted_eq_nil.1 he))
      · have heq := encrypted_eq_nil.2 he
        refine .inr (.inr ⟨heq, fun name => ?_⟩)
        cases hm : m (type, name) with
        | none => rfl
        | some e =>
          obtain ⟨r, hr, hs⟩ := h.selectItem_of_some hm
          rw [answer_columns, some_inj] at hquery
          have hmem : r ∈ items := by
            rw [map_injective_iff.mpr itemValues_injective hquery]
            exact mem_filter.mpr ⟨(SQLiteStorage.selectItem_eq_some_iff.mp hr).1,
              decide_eq_true hs.type_eq⟩
          obtain ⟨-, name', e', -, -, hq⟩ := (ha.selects.mem r).mp hmem
          rw [← hholds, heq, Operator.holds, Operator.holdsAny] at hq
          cases hq
    · exact .inl ((compiles_iff overflowChecks wc keys hop).mpr ⟨hu, hc⟩)

/-- The objects and lists of the query are not empty and its lists of values compile, or the query
is at most one empty list of operators, which asks for the same as no clause. -/
def Searchable (m : RecordMap) (type : String) (members : List (String × Json)) : Prop :=
  compilesMembers overflowChecks members = true ∨ members = [("$and", .arr [])] ∨
    (members = [("$or", .arr [])] ∧ ∀ name, m (type, name) = none)

theorem answerable_iff {members : List (String × Json)} (h : parse members = .ok op) :
    op.Answerable overflowChecks m type ↔ Searchable overflowChecks m type members := by
  rw [Operator.Answerable, parse_compiles overflowChecks h, parse_eq_and_nil h, parse_eq_or_nil h,
    Searchable]
  cases members with
  | nil => simp [compilesMembers]
  | cons member members => simp

theorem parseFromJson_eq_ok {fromStr : String → Option Json} {json : String}
    (h : parseFromJson fromStr json = .ok op) :
    ∃ members, fromStr json = some (.obj members) ∧ parse members = .ok op := by
  obtain ⟨query, hq, h⟩ := Outcome.bind_eq_ok_iff.mp h
  cases query with
  | obj members => exact ⟨members, Outcome.ofOption_eq_ok.mp hq, h⟩
  | _ => cases h

/-- An accepted query is answered exactly when it is searchable. -/
theorem search_answered_iff {fromStr : String → Option Json} {json : String}
    {members : List (String × Json)} {op : Operator} (hq : fromStr json = some (.obj members))
    (hop : parseFromJson fromStr json = .ok op) {m : RecordMap} (h : Represents wc keys db m)
    (type : String) :
    Answered overflowChecks wc keys like db m type (.obj members) op ↔
      Searchable overflowChecks m type members := by
  obtain ⟨members', hq', hp⟩ := parseFromJson_eq_ok hop
  cases hq.symm.trans hq'
  have hparsed := parsed_parse hp
  have hholds : ∀ tags, op.holds like tags = holdsQuery like tags (.obj members) :=
    fun tags => parse_holds like tags hp
  rw [← answerable_iff overflowChecks hp]
  exact ⟨answerable_of_answered overflowChecks h hparsed hholds,
    answered_of_answerable overflowChecks h hparsed hholds⟩

/-- A record with an encrypted and a plaintext tag. -/
def exampleAdd : Call :=
  ⟨.add "t" "n" "v" (AList.insert "a" "1" (AList.insert "~b" "2" ∅)), zeroRandomness⟩

def exampleStore : Store := (step plainCrypto zeroKeys readAll .inserted exampleAdd
  (Store.create [])).2

def exampleMap : RecordMap := (RecordMap.step readAll exampleAdd RecordMap.empty).2

theorem exampleStore_represents :
    Represents plainCrypto zeroKeys exampleStore.db exampleMap := by
  have hfree : AddsToFreeRow plainCrypto zeroKeys (Store.create []) exampleAdd := by
    intro _ tag htag
    cases tag <;> cases htag
  exact (step_refines readAll .inserted (represents_create []) hfree).2

/-- A JSON reader of one text. -/
def reads (text : String) (members : List (String × Json)) (s : String) : Option Json :=
  if s = text then some (.obj members) else none

/-- One tag equal to a value, and no other tag equal to one of no values. -/
def exampleQuery : List (String × Json) :=
  [("a", .str "1"), ("$not", .obj [("~b", .obj [("$in", .arr [])])])]

def exampleText : String :=
  "\x7b\"a\":\"1\",\"$not\":\x7b\"~b\":\x7b\"$in\":[]\x7d\x7d\x7d"

def exampleOperator : Operator :=
  .and [.compare .eq (.encryptedTagName (Bytes.ofText "a")) (.unencrypted "1"),
    .not (.in (.plainTagName (Bytes.ofText "b")) [])]

theorem parse_exampleText :
    parseFromJson (reads exampleText exampleQuery) exampleText = .ok exampleOperator := by
  rfl

theorem search_answered_exampleQuery :
    Answered true plainCrypto zeroKeys (fun a b => a = b) exampleStore.db exampleMap "t"
      (.obj exampleQuery) exampleOperator := by
  have hq : reads exampleText exampleQuery exampleText = some (.obj exampleQuery) := if_pos rfl
  exact (search_answered_iff true hq parse_exampleText exampleStore_represents "t").mpr
    (.inl (by decide +kernel))

/-- An encrypted tag with a list of one value. -/
def oneValueQuery : List (String × Json) := [("a", .obj [("$in", .arr [.str "1"])])]

def oneValueText : String := "\x7b\"a\":\x7b\"$in\":[\"1\"]\x7d\x7d"

def oneValueOperator : Operator := .in (.encryptedTagName (Bytes.ofText "a")) [.unencrypted "1"]

theorem oneValueQuery_not_answered :
    parseFromJson (reads oneValueText oneValueQuery) oneValueText = .ok oneValueOperator ∧
      ¬ Answered true plainCrypto zeroKeys (fun a b => a = b) exampleStore.db exampleMap "t"
        (.obj oneValueQuery) oneValueOperator ∧
      ¬ Answered false plainCrypto zeroKeys (fun a b => a = b) exampleStore.db exampleMap "t"
        (.obj oneValueQuery) oneValueOperator := by
  have hp : parse oneValueQuery = .ok oneValueOperator := by rfl
  have hnot : ∀ overflowChecks, ¬ Answered overflowChecks plainCrypto zeroKeys (fun a b => a = b)
      exampleStore.db exampleMap "t" (.obj oneValueQuery) oneValueOperator := by
    intro overflowChecks ha
    have hs := (answerable_iff overflowChecks hp).mp (answerable_of_answered overflowChecks
      exampleStore_represents (parsed_parse hp) (fun tags => parse_holds _ tags hp) ha)
    rcases hs with hc | he | ⟨he, -⟩
    · revert hc
      cases overflowChecks <;> decide +kernel
    · exact absurd he (by simp [oneValueQuery])
    · exact absurd he (by simp [oneValueQuery])
  exact ⟨by rfl, hnot true, hnot false⟩

end IndySdk.Wallet.Language
