import IndySdk.QuerySql

/-!
# What the compiled clauses say

The tokens of a clause parse to its condition wherever an operand may stand, and to nothing when
the clause contains an empty list of operators or a list of values that ends in a comma. A
condition takes the arguments of its clause and decides what the operator says about stored tags.
-/

namespace IndySdk.Wallet.Language

open List
open Sql (parseOr parseOrRest parseAnd parseAndRest parseNot parsePrimary parseScalars parseList
  parseScalar)

/-- What may follow an operand. -/
def Ends (rest : List Sql.Token) : Prop :=
  ∀ t ∈ rest.head?, t = .rparen ∨ t = .and ∨ t = .or

/-- The tokens of the clause parse to its condition, whatever follows. -/
def Parses (c : ClauseSpec) : Prop :=
  ∀ fuel rest, Ends rest → 6 * c.tokens.length + 1 ≤ fuel →
    parseNot fuel (c.tokens ++ rest) = c.cond.map (·, rest)

theorem ends_rparen (rest : List Sql.Token) : Ends (.rparen :: rest) := by
  intro t ht
  cases ht
  exact .inl rfl

theorem parseNot_ends {fuel : ℕ} {rest : List Sql.Token} (h : Ends rest) :
    parseNot fuel rest = none := by
  cases fuel with
  | zero => rfl
  | succ fuel =>
    cases fuel with
    | zero =>
      cases rest with
      | nil => rfl
      | cons t rest => rcases h t rfl with rfl | rfl | rfl <;> rfl
    | succ fuel =>
      cases rest with
      | nil => rfl
      | cons t rest => rcases h t rfl with rfl | rfl | rfl <;> rfl

theorem parses_empty : Parses ⟨[], [], none⟩ := fun _ _ h _ => parseNot_ends h

theorem parseNot_tagHead {table : String} {fuel : ℕ} {ts rest : List Sql.Token}
    {valueCond : Option (Sql.Cond Unit)}
    (h : parsePrimary fuel (.ident "value" :: ts) =
      valueCond.map (·, .rparen :: .rparen :: rest)) :
    parseNot (fuel + 10) (tagHead table ++ ts) =
      valueCond.map (fun v => (tagCond table v, rest)) := by
  cases valueCond with
  | none =>
    simp only [tagHead, cons_append, nil_append, parseNot, parsePrimary, parseOr,
      parseAnd, parseAndRest, parseScalar, Sql.compareOp, Option.bind_eq_bind, Option.bind_some,
      h, Option.map_none, Option.bind_none]
  | some v =>
    simp only [tagHead, cons_append, nil_append, parseNot, parsePrimary, parseOr,
      parseAnd, parseAndRest, parseOrRest, parseScalar, Sql.compareOp, Option.bind_eq_bind,
      Option.bind_some, h, Option.map_some, tagCond]

theorem parses_compareClause (c : Comparison) (name : TagName) (value : TargetValue) :
    Parses (compareClause c name value) := by
  intro fuel rest _ hf
  obtain ⟨k, rfl⟩ : ∃ k, fuel = k + 1 + 10 := ⟨fuel - 11, by
    simp only [compareClause, tagHead, length_append, length_cons] at hf
    omega⟩
  have hp : parsePrimary (k + 1)
      (.ident "value" :: c.token :: .param :: .rparen :: .rparen :: rest) =
      (some (.compare c.sqlOp (.column none "value") (.param ()))).map
        (·, .rparen :: .rparen :: rest) := by
    cases c <;> rfl
  rw [compareClause, append_assoc]
  exact parseNot_tagHead hp

theorem parseScalars_placeholders {fuel n : ℕ} {rest : List Sql.Token} (h : n < fuel) :
    parseScalars fuel (placeholders (n + 1) ++ .rparen :: rest) =
      some (List.replicate (n + 1) (.param ()), rest) := by
  induction n generalizing fuel with
  | zero =>
    obtain ⟨fuel, rfl⟩ : ∃ k, fuel = k + 1 := ⟨fuel - 1, by omega⟩
    rfl
  | succ n ih =>
    obtain ⟨fuel, rfl⟩ : ∃ k, fuel = k + 1 := ⟨fuel - 1, by omega⟩
    have ih := @ih fuel (by omega)
    simp only [placeholders, cons_append, parseScalars, parseScalar, Option.bind_eq_bind,
      Option.bind_some, ih, replicate_succ]

theorem parsePrimary_values {fuel n : ℕ} {name : TagName} {rest : List Sql.Token}
    (h : n + 1 ≤ fuel) :
    parsePrimary (fuel + 1) (.ident "value" :: .in :: .lparen ::
        (valueTokens name n ++ .rparen :: rest)) =
      ((parsedValues name n).map (Sql.Cond.inList (.column none "value"))).map (·, rest) := by
  match name, n with
  | .encryptedTagName _, 0 | .plainTagName _, 0 => rfl
  | .encryptedTagName _, 1 =>
    obtain ⟨fuel, rfl⟩ : ∃ k, fuel = k + 2 := ⟨fuel - 2, by omega⟩
    rfl
  | .plainTagName _, 1 =>
    obtain ⟨fuel, rfl⟩ : ∃ k, fuel = k + 1 := ⟨fuel - 1, by omega⟩
    rfl
  | .encryptedTagName _, n + 2 | .plainTagName _, n + 2 =>
    have hp := @parseScalars_placeholders fuel (n + 1) rest (by omega)
    simp only [placeholders, cons_append] at hp
    simp only [valueTokens, placeholders, cons_append, parsePrimary, parseScalar,
      Option.bind_eq_bind, Option.bind_some, parseList, hp, parsedValues, Option.map_some]

theorem placeholders_length (n : ℕ) : n ≤ (placeholders n).length := by
  induction n with
  | zero => exact Nat.zero_le _
  | succ n ih =>
    cases n with
    | zero => exact Nat.le_refl _
    | succ n =>
      rw [placeholders, length_cons, length_cons]
      omega

theorem valueTokens_length (name : TagName) (n : ℕ) : n ≤ (valueTokens name n).length := by
  match name, n with
  | .encryptedTagName _, 0 | .encryptedTagName _, 1 => simp [valueTokens]
  | .encryptedTagName _, n + 2 => exact placeholders_length _
  | .plainTagName _, n => exact placeholders_length n

theorem parses_inClause (name : TagName) (values : List TargetValue) :
    Parses (inClause name values) := by
  intro fuel rest _ hf
  have hlen := valueTokens_length name values.length
  obtain ⟨k, rfl⟩ : ∃ k, fuel = k + 1 + 10 := ⟨fuel - 11, by
    simp only [inClause, length_append, tagHead, length_cons, length_nil] at hf
    omega⟩
  have hp := @parsePrimary_values k values.length name (.rparen :: .rparen :: rest) (by
    simp only [inClause, length_append, tagHead, length_cons, length_nil] at hf
    omega)
  have hn := @parseNot_tagHead name.table _ _ _ _ hp
  simpa only [inClause, append_assoc, cons_append, nil_append, Option.map_map,
    Function.comp_def] using hn

theorem parses_not {c : ClauseSpec} (h : Parses c) : Parses c.not := by
  intro fuel rest _ hf
  simp only [ClauseSpec.not, length_cons, length_append, length_nil] at hf
  obtain ⟨k, rfl⟩ : ∃ k, fuel = k + 6 := ⟨fuel - 6, by omega⟩
  have hc := h (k + 1) (.rparen :: rest) (ends_rparen rest) (by omega)
  simp only [ClauseSpec.not, cons_append, append_assoc, nil_append, parseNot,
    parsePrimary, parseOr, parseAnd, hc]
  cases c.cond with
  | none => rfl
  | some d => rfl

theorem parseAndRest_stop {fuel : ℕ} {c : Sql.Cond Unit} {rest : List Sql.Token} (h : 1 ≤ fuel)
    (hr : rest.head? ≠ some .and) : parseAndRest fuel c rest = some (c, rest) := by
  obtain ⟨fuel, rfl⟩ : ∃ k, fuel = k + 1 := ⟨fuel - 1, by omega⟩
  cases rest with
  | nil => rfl
  | cons t rest => cases t <;> first | rfl | exact absurd rfl hr

/-- The tokens of further operands, each after its separator. -/
def chain (sep : Sql.Token) (clauses : List ClauseSpec) : List Sql.Token :=
  clauses.flatMap (fun c => sep :: c.tokens)

theorem chain_cons (sep : Sql.Token) (c : ClauseSpec) (clauses : List ClauseSpec) :
    chain sep (c :: clauses) = sep :: (c.tokens ++ chain sep clauses) := rfl

theorem head_chain (sep : Sql.Token) (clauses : List ClauseSpec) (rest : List Sql.Token) :
    (chain sep clauses ++ .rparen :: rest).head? = some .rparen ∨
      (chain sep clauses ++ .rparen :: rest).head? = some sep := by
  cases clauses with
  | nil => exact .inl rfl
  | cons c clauses => exact .inr rfl

theorem ends_chain {sep : Sql.Token} (hsep : sep = .and ∨ sep = .or) (clauses : List ClauseSpec)
    (rest : List Sql.Token) : Ends (chain sep clauses ++ .rparen :: rest) := by
  intro t ht
  rcases head_chain sep clauses rest with h | h
  · rw [h] at ht
    cases ht
    exact .inl rfl
  · rw [h] at ht
    cases ht
    exact .inr hsep

theorem joinTokens_cons (sep : Sql.Token) (c : ClauseSpec) (clauses : List ClauseSpec) :
    joinTokens sep ((c :: clauses).map ClauseSpec.tokens) = c.tokens ++ chain sep clauses := by
  induction clauses generalizing c with
  | nil => exact (append_nil _).symm
  | cons d clauses ih =>
    rw [chain_cons, ← ih d]
    rfl

theorem parseAndRest_chain {clauses : List ClauseSpec} (h : ∀ c ∈ clauses, Parses c) (fuel : ℕ)
    (first : Sql.Cond Unit) (rest : List Sql.Token)
    (hf : 6 * (chain .and clauses).length + 1 ≤ fuel) :
    parseAndRest fuel first (chain .and clauses ++ .rparen :: rest) =
      (clauses.mapM ClauseSpec.cond).map (fun l => (l.foldl .and first, .rparen :: rest)) := by
  induction clauses generalizing fuel first with
  | nil => exact parseAndRest_stop hf (by simp [chain])
  | cons c clauses ih =>
    rw [chain_cons, length_cons, length_append] at hf
    obtain ⟨fuel, rfl⟩ : ∃ k, fuel = k + 1 := ⟨fuel - 1, by omega⟩
    have hc := h c mem_cons_self fuel _ (ends_chain (.inl rfl) clauses rest) (by omega)
    rw [chain_cons, cons_append, append_assoc, parseAndRest, hc, mapM_cons]
    cases c.cond with
    | none => rfl
    | some d =>
      have ih := ih (fun c hc => h c (mem_cons_of_mem _ hc)) fuel (.and first d) (by omega)
      simp only [Option.map_some, Option.bind_eq_bind, Option.bind_some, ih]
      cases clauses.mapM ClauseSpec.cond <;> rfl

theorem parseAnd_single {c : ClauseSpec} (h : Parses c) {fuel : ℕ} {rest : List Sql.Token}
    (he : Ends rest) (hr : rest.head? ≠ some .and) (hf : 6 * c.tokens.length + 2 ≤ fuel) :
    parseAnd fuel (c.tokens ++ rest) = c.cond.map (·, rest) := by
  obtain ⟨fuel, rfl⟩ : ∃ k, fuel = k + 1 := ⟨fuel - 1, by omega⟩
  rw [parseAnd, h fuel rest he (by omega)]
  cases c.cond with
  | none => rfl
  | some d => exact parseAndRest_stop (by omega) hr

theorem head_chain_or (clauses : List ClauseSpec) (rest : List Sql.Token) :
    (chain .or clauses ++ .rparen :: rest).head? ≠ some .and := by
  rcases head_chain .or clauses rest with h | h <;> rw [h] <;> decide

theorem parseOrRest_chain {clauses : List ClauseSpec} (h : ∀ c ∈ clauses, Parses c) (fuel : ℕ)
    (first : Sql.Cond Unit) (rest : List Sql.Token)
    (hf : 6 * (chain .or clauses).length + 1 ≤ fuel) :
    parseOrRest fuel first (chain .or clauses ++ .rparen :: rest) =
      (clauses.mapM ClauseSpec.cond).map (fun l => (l.foldl .or first, .rparen :: rest)) := by
  induction clauses generalizing fuel first with
  | nil =>
    obtain ⟨fuel, rfl⟩ : ∃ k, fuel = k + 1 := ⟨fuel - 1, by omega⟩
    rfl
  | cons c clauses ih =>
    rw [chain_cons, length_cons, length_append] at hf
    obtain ⟨fuel, rfl⟩ : ∃ k, fuel = k + 1 := ⟨fuel - 1, by omega⟩
    have hc := @parseAnd_single c (h c mem_cons_self) fuel _
      (ends_chain (.inr rfl) clauses rest) (head_chain_or clauses rest) (by omega)
    rw [chain_cons, cons_append, append_assoc, parseOrRest, hc, mapM_cons]
    cases c.cond with
    | none => rfl
    | some d =>
      have ih := ih (fun c hc => h c (mem_cons_of_mem _ hc)) fuel (.or first d) (by omega)
      simp only [Option.map_some, Option.bind_eq_bind, Option.bind_some, ih]
      cases clauses.mapM ClauseSpec.cond <;> rfl

theorem parses_and {clauses : List ClauseSpec} (h : ∀ c ∈ clauses, Parses c) :
    Parses (.join .and .and clauses) := by
  cases clauses with
  | nil => exact parses_empty
  | cons c clauses =>
    intro fuel rest _ hf
    simp only [ClauseSpec.join, joinTokens_cons, length_cons, length_append,
      length_nil] at hf
    obtain ⟨k, rfl⟩ : ∃ k, fuel = k + 5 := ⟨fuel - 5, by omega⟩
    have hc := h c mem_cons_self (k + 1) _ (ends_chain (.inl rfl) clauses rest) (by omega)
    simp only [ClauseSpec.join, joinTokens_cons, cons_append, append_assoc,
      nil_append, parseNot, parsePrimary, parseOr, parseAnd, hc]
    cases c.cond with
    | none => rfl
    | some d =>
      have hchain := parseAndRest_chain (fun c hc => h c (mem_cons_of_mem _ hc)) (k + 1) d
        rest (by omega)
      simp only [Option.map_some, Option.bind_eq_bind, Option.bind_some, hchain]
      cases clauses.mapM ClauseSpec.cond <;> rfl

theorem parses_or {clauses : List ClauseSpec} (h : ∀ c ∈ clauses, Parses c) :
    Parses (.join .or .or clauses) := by
  cases clauses with
  | nil => exact parses_empty
  | cons c clauses =>
    intro fuel rest _ hf
    simp only [ClauseSpec.join, joinTokens_cons, length_cons, length_append,
      length_nil] at hf
    obtain ⟨k, rfl⟩ : ∃ k, fuel = k + 4 := ⟨fuel - 4, by omega⟩
    have hc := @parseAnd_single c (h c mem_cons_self) (k + 1) _
      (ends_chain (.inr rfl) clauses rest) (head_chain_or clauses rest) (by omega)
    simp only [ClauseSpec.join, joinTokens_cons, cons_append, append_assoc,
      nil_append, parseNot, parsePrimary, parseOr, hc]
    cases c.cond with
    | none => rfl
    | some d =>
      have hchain := parseOrRest_chain (fun c hc => h c (mem_cons_of_mem _ hc)) (k + 1) d
        rest (by omega)
      simp only [Option.map_some, Option.bind_eq_bind, Option.bind_some, hchain]
      cases clauses.mapM ClauseSpec.cond <;> rfl

theorem parses_of_sealed {o : Operator} (h : o.Sealed) : Parses o.clause := by
  induction h with
  | and h ih =>
    rw [Operator.clause, Operator.clauses_eq_map]
    exact parses_and (forall_mem_map.mpr ih)
  | or h ih =>
    rw [Operator.clause, Operator.clauses_eq_map]
    exact parses_or (forall_mem_map.mpr ih)
  | not h ih => exact parses_not ih
  | plain c name s => exact parses_compareClause c _ _
  | eq name value => exact parses_compareClause .eq _ _
  | neq name value => exact parses_compareClause .neq _ _
  | inPlain name values => exact parses_inClause _ _
  | inEncrypted name values => exact parses_inClause _ _

def itemRow (r : ItemRow) : Sql.Row
  | "id" => some (.int r.id)
  | "type" => some (.blob r.type)
  | "name" => some (.blob r.name)
  | "value" => some (.blob r.value)
  | "key" => some (.blob r.key)
  | _ => none

def tagRow {α : Type} (value : α → Sql.Value) (r : TagRow α) : Sql.Row
  | "name" => some (.blob r.name)
  | "value" => some (value r.value)
  | "item_id" => some (.int r.itemId)
  | _ => none

/-- The tables of the storage as the engine sees them. -/
def sqlTables (db : Db) : Sql.Tables
  | "items" => some (db.items.rows.map itemRow)
  | "tags_encrypted" => some (db.tags.encrypted.rows.map (tagRow .blob))
  | "tags_plaintext" => some (db.tags.plaintext.rows.map (tagRow .text))
  | _ => none

open Sql (bindCond bindScalar bindScalars evalCond evalScalar)

variable (like : String → String → Bool) (db : Db)

/-- The condition takes the arguments and decides a property of an item's id. -/
def Decides (k : Sql.Cond Unit) (arguments : List Sql.Value) (p : ℕ → Bool) : Prop :=
  ∃ b, (∀ rest, bindCond k (arguments ++ rest) = some (b, rest)) ∧
    ∀ r : ItemRow, evalCond like (sqlTables db) [("i", itemRow r)] b = some (p r.id)

variable {like db}

theorem Decides.and {k l : Sql.Cond Unit} {as bs : List Sql.Value} {p q : ℕ → Bool}
    (hk : Decides like db k as p) (hl : Decides like db l bs q) :
    Decides like db (.and k l) (as ++ bs) (fun i => p i && q i) := by
  obtain ⟨b, hb, hp⟩ := hk
  obtain ⟨c, hc, hq⟩ := hl
  refine ⟨.and b c, fun rest => ?_, fun r => ?_⟩
  · simp only [bindCond, append_assoc, hb, hc, Option.bind_eq_bind, Option.bind_some]
  · simp only [evalCond, hp, hq, Option.bind_eq_bind, Option.bind_some]

theorem Decides.or {k l : Sql.Cond Unit} {as bs : List Sql.Value} {p q : ℕ → Bool}
    (hk : Decides like db k as p) (hl : Decides like db l bs q) :
    Decides like db (.or k l) (as ++ bs) (fun i => p i || q i) := by
  obtain ⟨b, hb, hp⟩ := hk
  obtain ⟨c, hc, hq⟩ := hl
  refine ⟨.or b c, fun rest => ?_, fun r => ?_⟩
  · simp only [bindCond, append_assoc, hb, hc, Option.bind_eq_bind, Option.bind_some]
  · simp only [evalCond, hp, hq, Option.bind_eq_bind, Option.bind_some]

theorem Decides.not {k : Sql.Cond Unit} {as : List Sql.Value} {p : ℕ → Bool}
    (hk : Decides like db k as p) : Decides like db (.not k) as (fun i => !p i) := by
  obtain ⟨b, hb, hp⟩ := hk
  refine ⟨.not b, fun rest => ?_, fun r => ?_⟩
  · simp only [bindCond, hb, Option.bind_eq_bind, Option.bind_some]
  · simp only [evalCond, hp, Option.bind_eq_bind, Option.bind_some]

theorem Decides.congr {k : Sql.Cond Unit} {as : List Sql.Value} {p q : ℕ → Bool}
    (hk : Decides like db k as p) (h : ∀ i, p i = q i) : Decides like db k as q :=
  (funext h : p = q) ▸ hk

theorem decides_foldl {combine : Sql.Cond Unit → Sql.Cond Unit → Sql.Cond Unit}
    {f : Bool → Bool → Bool}
    (hcombine : ∀ {k l as bs p q}, Decides like db k as p → Decides like db l bs q →
      Decides like db (combine k l) (as ++ bs) (fun i => f (p i) (q i)))
    {operators : List Operator} {p : Operator → ℕ → Bool}
    (h : ∀ o ∈ operators, ∀ k ∈ o.clause.cond, Decides like db k o.clause.arguments (p o))
    {first : Sql.Cond Unit} {as : List Sql.Value} {q : ℕ → Bool}
    (hfirst : Decides like db first as q)
    {l : List (Sql.Cond Unit)} (hl : operators.mapM (·.clause.cond) = some l) :
    Decides like db (l.foldl combine first) (as ++ operators.flatMap (·.clause.arguments))
      (fun i => operators.foldl (fun b o => f b (p o i)) (q i)) := by
  induction operators generalizing first as q l with
  | nil =>
    cases hl
    simpa using hfirst
  | cons o operators ih =>
    rw [mapM_cons] at hl
    obtain ⟨k, hk, hl⟩ := Option.bind_eq_some_iff.mp hl
    obtain ⟨ks, hks, hl⟩ := Option.bind_eq_some_iff.mp hl
    cases hl
    have := ih (fun o ho => h o (mem_cons_of_mem _ ho))
      (hcombine hfirst (h o mem_cons_self k hk)) hks
    simpa only [flatMap_cons, append_assoc, foldl_cons] using this

theorem decides_tagCond {α : Type} {table : String} {rows : List (TagRow α)}
    {value : α → Sql.Value} (htable : sqlTables db table = some (rows.map (tagRow value)))
    {valueCond : Sql.Cond Unit} {as : List Sql.Value} {b : Sql.Cond Sql.Value} {p : α → Bool}
    (hb : ∀ rest, bindCond valueCond (as ++ rest) = some (b, rest))
    (hp : ∀ scopes r, evalCond like (sqlTables db) ((table, tagRow value r) :: scopes) b =
      some (p r.value)) (name : Bytes) :
    Decides like db (tagCond table valueCond) (.blob name :: as)
      (fun i => rows.any (fun r => r.name = name ∧ p r.value ∧ r.itemId = i)) := by
  refine ⟨.inSelect (.column (some "i") "id") "item_id" table
    (.and (.compare .eq (.column none "name") (.param (.blob name))) b), fun rest => ?_,
    fun item => ?_⟩
  · simp only [tagCond, bindCond, bindScalar, cons_append, hb, Option.bind_eq_bind,
      Option.bind_some]
  · have hrow : ∀ r ∈ rows, evalCond like (sqlTables db)
        [(table, tagRow value r), ("i", itemRow item)]
        (.and (.compare .eq (.column none "name") (.param (.blob name))) b) =
          some (decide (r.name = name) && p r.value) := by
      intro r _
      simp [evalCond, evalScalar, tagRow, Sql.CompareOp.eval, hp]
    have hid : evalScalar [("i", itemRow item)] (.column (some "i") "id") =
        some (.int item.id) := rfl
    rw [Sql.evalCond_inSelect hid htable hrow (fun _ _ => rfl)]
    simp [Bool.and_assoc]

theorem decides_compare {α : Type} {table : String} {rows : List (TagRow α)}
    {value : α → Sql.Value} (htable : sqlTables db table = some (rows.map (tagRow value)))
    {op : Sql.CompareOp} {target : Sql.Value} {p : α → Bool}
    (hp : ∀ v, op.eval like (value v) target = some (p v)) (name : Bytes) :
    Decides like db (tagCond table (.compare op (.column none "value") (.param ())))
      [.blob name, target]
      (fun i => rows.any (fun r => r.name = name ∧ p r.value ∧ r.itemId = i)) := by
  refine decides_tagCond htable
    (b := .compare op (.column none "value") (.param target)) (fun rest => rfl)
    (fun scopes r => ?_) name
  have hs : evalScalar ((table, tagRow value r) :: scopes) (.column none "value") =
      some (value r.value) := rfl
  have ht : evalScalar ((table, tagRow value r) :: scopes) (.param target) = some target := rfl
  simp only [evalCond, hs, ht, Option.bind_eq_bind, Option.bind_some, hp]

theorem bindScalars_replicate {π : Type} (as rest : List π) :
    bindScalars (List.replicate as.length (.param ())) (as ++ rest) =
      some (as.map Sql.Scalar.param, rest) := by
  induction as with
  | nil => rfl
  | cons a as ih =>
    simp only [length_cons, replicate_succ, cons_append, bindScalars, bindScalar,
      Option.bind_eq_bind, Option.bind_some, ih, map_cons]

theorem decides_in {α : Type} {table : String} {rows : List (TagRow α)}
    {value : α → Sql.Value} (htable : sqlTables db table = some (rows.map (tagRow value)))
    {targets : List Sql.Value} {p : α → Bool} (hp : ∀ v, p v = decide (value v ∈ targets))
    (name : Bytes) :
    Decides like db (tagCond table (.inList (.column none "value")
        (List.replicate targets.length (.param ())))) (.blob name :: targets)
      (fun i => rows.any (fun r => r.name = name ∧ p r.value ∧ r.itemId = i)) := by
  refine decides_tagCond htable
    (b := .inList (.column none "value") (targets.map .param)) (fun rest => ?_)
    (fun scopes r => ?_) name
  · simp only [bindCond, bindScalar, bindScalars_replicate, Option.bind_eq_bind, Option.bind_some]
  · have hs : evalScalar ((table, tagRow value r) :: scopes) (.column none "value") =
        some (value r.value) := rfl
    have hl : (targets.map Sql.Scalar.param).mapM
        (evalScalar ((table, tagRow value r) :: scopes)) = some targets := by
      rw [mapM_map]
      exact (Sql.mapM_eq_some (g := id) (fun _ _ => rfl)).trans (by rw [map_id])
    simp only [evalCond, hs, hl, Option.bind_eq_bind, Option.bind_some, hp]

theorem parsedValues_eq {name : TagName} {n : ℕ} {l : List (Sql.Scalar Unit)}
    (h : parsedValues name n = some l) : l = List.replicate n (.param ()) := by
  unfold parsedValues at h
  split at h <;> cases h
  rfl

theorem decides_inClause {α : Type} {name : TagName} {rows : List (TagRow α)}
    {value : α → Sql.Value} (htable : sqlTables db name.table = some (rows.map (tagRow value)))
    {values : List TargetValue} {p : α → Bool}
    (hp : ∀ v, p v = decide (value v ∈ values.map TargetValue.argument)) :
    ∀ k ∈ (inClause name values).cond, Decides like db k (inClause name values).arguments
      (fun i => rows.any (fun r => r.name = name.bytes ∧ p r.value ∧ r.itemId = i)) := by
  intro k hk
  obtain ⟨l, hl, rfl⟩ := Option.map_eq_some_iff.mp hk
  have hd := @decides_in like db _ _ _ _ htable _ _ hp name.bytes
  rw [length_map] at hd
  rw [parsedValues_eq hl]
  exact hd

theorem decides_join {sep : Sql.Token}
    {combine : Sql.Cond Unit → Sql.Cond Unit → Sql.Cond Unit} {f : Bool → Bool → Bool}
    (hcombine : ∀ {k l as bs p q}, Decides like db k as p → Decides like db l bs q →
      Decides like db (combine k l) (as ++ bs) (fun i => f (p i) (q i)))
    {o : Operator} {operators : List Operator} {p : Operator → ℕ → Bool}
    (h : ∀ c ∈ o :: operators, ∀ k ∈ c.clause.cond, Decides like db k c.clause.arguments (p c)) :
    ∀ k ∈ (ClauseSpec.join sep combine ((o :: operators).map Operator.clause)).cond,
      Decides like db k
        (ClauseSpec.join sep combine ((o :: operators).map Operator.clause)).arguments
        (fun i => operators.foldl (fun b o => f b (p o i)) (p o i)) := by
  intro k hk
  obtain ⟨first, hfirst, hk⟩ := Option.bind_eq_some_iff.mp hk
  obtain ⟨rest, hrest, hk⟩ := Option.bind_eq_some_iff.mp hk
  cases hk
  rw [mapM_map] at hrest
  have hd := decides_foldl hcombine (fun o ho => h o (mem_cons_of_mem _ ho))
    (h o mem_cons_self first hfirst) hrest
  simpa [ClauseSpec.join, flatMap_def, Function.comp_def] using hd

theorem foldl_and_eq {p : Operator → Bool} {operators : List Operator} (b : Bool) :
    operators.foldl (fun b o => b && p o) b = (b && operators.all p) := by
  induction operators generalizing b with
  | nil => simp
  | cons o operators ih => rw [foldl_cons, ih, all_cons, Bool.and_assoc]

theorem foldl_or_eq {p : Operator → Bool} {operators : List Operator} (b : Bool) :
    operators.foldl (fun b o => b || p o) b = (b || operators.any p) := by
  induction operators generalizing b with
  | nil => simp
  | cons o operators ih => rw [foldl_cons, ih, any_cons, Bool.or_assoc]

theorem plainText_eval (c : Comparison) (s v : String) :
    c.sqlOp.eval like (.text v) (.text s) = some (c.holds like v s) := by
  cases c <;> simp [Comparison.sqlOp, Sql.CompareOp.eval, Comparison.holds, Sql.Value.lt]

theorem blob_eval_eq (b v : Bytes) :
    Sql.CompareOp.eq.eval like (.blob v) (.blob b) = some (decide (v = b)) := by
  simp [Sql.CompareOp.eval]

theorem blob_eval_ne (b v : Bytes) :
    Sql.CompareOp.ne.eval like (.blob v) (.blob b) = some (decide (v ≠ b)) := by
  simp [Sql.CompareOp.eval]

/-- The condition of the clause of an encrypted operator decides what the operator says about the
stored tags. -/
theorem decides_of_sealed {o : Operator} (h : o.Sealed) :
    ∀ k ∈ o.clause.cond, Decides like db k o.clause.arguments
      (fun i => o.matches like db.tags i) := by
  induction h with
  | @and operators h ih =>
    rw [Operator.clause, Operator.clauses_eq_map]
    cases operators with
    | nil => exact fun _ hk => absurd hk (by simp [ClauseSpec.join])
    | cons o operators =>
      intro k hk
      refine (decides_join Decides.and ih k hk).congr (fun i => ?_)
      rw [foldl_and_eq, Operator.matches, Operator.matchesAll_eq_all, all_cons]
  | @or operators h ih =>
    rw [Operator.clause, Operator.clauses_eq_map]
    cases operators with
    | nil => exact fun _ hk => absurd hk (by simp [ClauseSpec.join])
    | cons o operators =>
      intro k hk
      refine (decides_join Decides.or ih k hk).congr (fun i => ?_)
      rw [foldl_or_eq, Operator.matches, Operator.matchesAny_eq_any, any_cons]
  | not h ih =>
    intro k hk
    obtain ⟨l, hl, rfl⟩ := Option.map_eq_some_iff.mp hk
    refine (ih l hl).not.congr (fun i => ?_)
    rw [Operator.matches]
  | plain c name s =>
    intro k hk
    cases hk
    exact decides_compare rfl (plainText_eval c s) name
  | eq name value =>
    intro k hk
    cases hk
    exact decides_compare rfl (blob_eval_eq value) name
  | neq name value =>
    intro k hk
    cases hk
    exact decides_compare rfl (blob_eval_ne value) name
  | inPlain name values =>
    have ht : sqlTables db (TagName.plainTagName name).table =
        some (db.tags.plaintext.rows.map (tagRow .text)) := rfl
    exact decides_inClause ht (p := fun v => .unencrypted v ∈ values.map TargetValue.unencrypted)
      (fun v => by simp [TargetValue.argument])
  | inEncrypted name values =>
    have ht : sqlTables db (TagName.encryptedTagName name).table =
        some (db.tags.encrypted.rows.map (tagRow .blob)) := rfl
    exact decides_inClause ht (p := fun v => .encrypted v ∈ values.map TargetValue.encrypted)
      (fun v => by simp [TargetValue.argument])

end IndySdk.Wallet.Language
