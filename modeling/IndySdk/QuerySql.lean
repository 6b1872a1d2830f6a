import IndySdk.QueryEncryption
import IndySdk.SqlText

/-!
# Compilation of wallet queries to SQL

Every operator becomes a clause and appends its arguments. Clauses of conjunctions and
disjunctions are parenthesised lists; a list of no operators becomes the empty clause, which only
the top of a query can leave out of its text.
-/

namespace IndySdk.Wallet.Language

open Outcome List

/-- A clause and the arguments collected so far. -/
abbrev Clause := IndyResult (String × List Sql.Value)

def tagClause (table sqlOperator : String) : String :=
  "(i.id in (SELECT item_id FROM " ++ table ++ " WHERE name = ? AND value " ++ sqlOperator ++ " ?))"

def compareToSql (sqlOperator what : String) (onEncrypted : Bool) (name : TagName)
    (value : TargetValue) (arguments : List Sql.Value) : Clause :=
  match name, value, onEncrypted with
  | .plainTagName queriedName, .unencrypted queriedValue, _ =>
    .ok (tagClause "tags_plaintext" sqlOperator,
      arguments ++ [.blob queriedName, .text queriedValue])
  | .encryptedTagName queriedName, .encrypted queriedValue, true =>
    .ok (tagClause "tags_encrypted" sqlOperator,
      arguments ++ [.blob queriedName, .blob queriedValue])
  | _, _, _ => .err (errMsg .walletQueryError
      ("Invalid combination of tag name and value for " ++ what ++ " operator"))

def eqToSql := compareToSql "=" "equality" true

def neqToSql := compareToSql "!=" "inequality" true

def gtToSql := compareToSql ">" "$gt" false

def gteToSql := compareToSql ">=" "$gte" false

def ltToSql := compareToSql "<" "$lt" false

def lteToSql := compareToSql "<=" "$lte" false

def likeToSql := compareToSql "LIKE" "$like" false

/-- The placeholders of a list of values; `comma` says after which indices a comma stands. -/
def inLoop (argument : TargetValue → Option Sql.Value) (error : String) (comma : ℕ → Bool) :
    ℕ → List TargetValue → String → List Sql.Value → Clause
  | _, [], inString, arguments => pure (inString, arguments)
  | index, value :: values, inString, arguments => do
    let target ← ofOption (errMsg .walletQueryError error) (argument value)
    let inString := inString ++ "?"
    inLoop argument error comma (index + 1) values
      (if comma index then inString ++ "," else inString) (arguments ++ [target])

def unencryptedArgument : TargetValue → Option Sql.Value
  | .unencrypted target => some (.text target)
  | .encrypted _ => none

def encryptedArgument : TargetValue → Option Sql.Value
  | .encrypted target => some (.blob target)
  | .unencrypted _ => none

/-- For encrypted names the index before the last is computed by an unsigned subtraction. -/
def inToSql (overflowChecks : Bool) (name : TagName) (values : List TargetValue)
    (arguments : List Sql.Value) : Clause :=
  match name with
  | .plainTagName queriedName => do
    let (inString, arguments) ← inLoop unencryptedArgument
      "Encrypted tag value in $in for nonencrypted tag name"
      (fun index => index < values.length - 1) 0 values
      "(i.id in (SELECT item_id FROM tags_plaintext WHERE name = ? AND value IN ("
      (arguments ++ [.blob queriedName])
    pure (inString ++ ")))", arguments)
  | .encryptedTagName queriedName => do
    let indexBeforeLast ← wordSub 64 overflowChecks values.length 2
    let (inString, arguments) ← inLoop encryptedArgument
      "Unencrypted tag value in $in for encrypted tag name"
      (fun index => index ≤ indexBeforeLast) 0 values
      "(i.id in (SELECT item_id FROM tags_encrypted WHERE name = ? AND value IN ("
      (arguments ++ [.blob queriedName])
    pure (inString ++ ")))", arguments)

variable (overflowChecks : Bool)

mutual

def operatorToSql : Operator → List Sql.Value → Clause
  | .compare .eq name value, arguments => eqToSql name value arguments
  | .compare .neq name value, arguments => neqToSql name value arguments
  | .compare .gt name value, arguments => gtToSql name value arguments
  | .compare .gte name value, arguments => gteToSql name value arguments
  | .compare .lt name value, arguments => ltToSql name value arguments
  | .compare .lte name value, arguments => lteToSql name value arguments
  | .compare .like name value, arguments => likeToSql name value arguments
  | .in name values, arguments => inToSql overflowChecks name values arguments
  | .and suboperators, arguments =>
    if suboperators.isEmpty then pure ("", arguments)
    else do
      let (s, arguments) ← joinLoop " AND " suboperators "(" arguments
      pure (s ++ ")", arguments)
  | .or suboperators, arguments =>
    if suboperators.isEmpty then pure ("", arguments)
    else do
      let (s, arguments) ← joinLoop " OR " suboperators "(" arguments
      pure (s ++ ")", arguments)
  | .not suboperator, arguments => do
    let (s, arguments) ← operatorToSql suboperator arguments
    pure ("NOT (" ++ s ++ ")", arguments)

/-- The loop of `join_operators`: the separator follows every operator but the last. -/
def joinLoop (joinStr : String) : List Operator → String → List Sql.Value → Clause
  | [], s, arguments => pure (s, arguments)
  | o :: operators, s, arguments => do
    let (operatorString, arguments) ← operatorToSql o arguments
    let s := s ++ operatorString
    joinLoop joinStr operators (if operators.isEmpty then s else s ++ joinStr) arguments

end

def appendClause (queryString clauseString : String) : String :=
  if clauseString = "" then queryString else queryString ++ " AND " ++ clauseString

def wqlToSql (type : Bytes) (op : Operator) : Clause := do
  let (clauseString, arguments) ← operatorToSql overflowChecks op [.blob type]
  pure (appendClause
    "SELECT i.id, i.name, i.value, i.key, i.type FROM items as i WHERE i.type = ?" clauseString,
    arguments)

def wqlToSqlCount (type : Bytes) (op : Operator) : Clause := do
  let (clauseString, arguments) ← operatorToSql overflowChecks op [.blob type]
  pure (appendClause "SELECT count(*) FROM items as i WHERE i.type = ?" clauseString, arguments)

/-- What a clause consists of: the tokens of its text, its arguments, and the condition the text
parses to, if it is well formed as an operand. -/
structure ClauseSpec where
  tokens : List Sql.Token
  arguments : List Sql.Value
  cond : Option (Sql.Cond Unit)

def joinTokens (sep : Sql.Token) : List (List Sql.Token) → List Sql.Token
  | [] => []
  | [ts] => ts
  | ts :: tss => ts ++ sep :: joinTokens sep tss

/-- The parenthesised list of some clauses; a list of none is no operand. -/
def ClauseSpec.join (sep : Sql.Token) (combine : Sql.Cond Unit → Sql.Cond Unit → Sql.Cond Unit) :
    List ClauseSpec → ClauseSpec
  | [] => ⟨[], [], none⟩
  | c :: clauses => {
      tokens := .lparen :: (joinTokens sep ((c :: clauses).map tokens) ++ [.rparen])
      arguments := (c :: clauses).flatMap arguments
      cond := do
        let first ← c.cond
        let rest ← clauses.mapM cond
        some (rest.foldl combine first) }

def ClauseSpec.not (c : ClauseSpec) : ClauseSpec where
  tokens := .not :: .lparen :: (c.tokens ++ [.rparen])
  arguments := c.arguments
  cond := c.cond.map .not

def TagName.bytes : TagName → Bytes
  | .encryptedTagName name => name
  | .plainTagName name => name

def TagName.table : TagName → String
  | .encryptedTagName _ => "tags_encrypted"
  | .plainTagName _ => "tags_plaintext"

def TargetValue.argument : TargetValue → Sql.Value
  | .unencrypted s => .text s
  | .encrypted b => .blob b

def Comparison.sqlOp : Comparison → Sql.CompareOp
  | .eq => .eq
  | .neq => .ne
  | .gt => .gt
  | .gte => .ge
  | .lt => .lt
  | .lte => .le
  | .like => .like

def Comparison.token : Comparison → Sql.Token
  | .eq => .eq
  | .neq => .ne
  | .gt => .gt
  | .gte => .ge
  | .lt => .lt
  | .lte => .le
  | .like => .like

/-- The tokens of a tag clause up to the comparison of the value. -/
def tagHead (table : String) : List Sql.Token :=
  [.lparen, .ident "i", .dot, .ident "id", .in, .lparen, .select, .ident "item_id", .from,
    .ident table, .where, .ident "name", .eq, .param, .and, .ident "value"]

def tagCond (table : String) (valueCond : Sql.Cond Unit) : Sql.Cond Unit :=
  .inSelect (.column (some "i") "id") "item_id" table
    (.and (.compare .eq (.column none "name") (.param ())) valueCond)

def compareClause (c : Comparison) (name : TagName) (value : TargetValue) : ClauseSpec where
  tokens := tagHead name.table ++ [c.token, .param, .rparen, .rparen]
  arguments := [.blob name.bytes, value.argument]
  cond := some (tagCond name.table (.compare c.sqlOp (.column none "value") (.param ())))

def placeholders : ℕ → List Sql.Token
  | 0 => []
  | 1 => [.param]
  | n + 2 => .param :: .comma :: placeholders (n + 1)

/-- One value next to an encrypted name is followed by a comma. -/
def valueTokens (name : TagName) (n : ℕ) : List Sql.Token :=
  match name, n with
  | .encryptedTagName _, 1 => [.param, .comma]
  | _, n => placeholders n

/-- What the values parse to; a list that ends in a comma is no list. -/
def parsedValues (name : TagName) (n : ℕ) : Option (List (Sql.Scalar Unit)) :=
  match name, n with
  | .encryptedTagName _, 1 => none
  | _, n => some (List.replicate n (.param ()))

def inClause (name : TagName) (values : List TargetValue) : ClauseSpec where
  tokens := tagHead name.table ++ .in :: .lparen ::
    (valueTokens name values.length ++ [.rparen, .rparen, .rparen])
  arguments := .blob name.bytes :: values.map TargetValue.argument
  cond := (parsedValues name values.length).map
    (fun l => tagCond name.table (.inList (.column none "value") l))

mutual

def Operator.clause : Operator → ClauseSpec
  | .and operators => .join .and .and (Operator.clauses operators)
  | .or operators => .join .or .or (Operator.clauses operators)
  | .not operator => operator.clause.not
  | .compare c name value => compareClause c name value
  | .in name values => inClause name values

def Operator.clauses : List Operator → List ClauseSpec
  | [] => []
  | o :: operators => o.clause :: Operator.clauses operators

end

mutual

/-- Compiling the operator aborts: the index before the last value of an encrypted list with fewer
than two values is below zero. -/
def Operator.underflows : Operator → Bool
  | .and operators => Operator.underflowsAny operators
  | .or operators => Operator.underflowsAny operators
  | .not operator => operator.underflows
  | .compare _ _ _ => false
  | .in (.encryptedTagName _) values => overflowChecks && values.length < 2
  | .in (.plainTagName _) _ => false

def Operator.underflowsAny : List Operator → Bool
  | [] => false
  | o :: operators => o.underflows || Operator.underflowsAny operators

end

/-- A text that consists of the tokens of a clause and has a placeholder for each argument. -/
structure Emits (text : String) (c : ClauseSpec) : Prop where
  lexes : Sql.Lexes text c.tokens
  count : text.toList.count '?' = c.arguments.length
  empty : text = "" ↔ c.tokens = []

/-- What compiling an operator does, whatever arguments were collected before. -/
def Compiled (o : Operator) : Prop :=
  if o.underflows overflowChecks then
    ∀ arguments, operatorToSql overflowChecks o arguments = .panic
  else ∃ text, Emits text o.clause ∧
    ∀ arguments, operatorToSql overflowChecks o arguments =
      .ok (text, arguments ++ o.clause.arguments)

def Comparison.sqlText : Comparison → String
  | .eq => "="
  | .neq => "!="
  | .gt => ">"
  | .gte => ">="
  | .lt => "<"
  | .lte => "<="
  | .like => "LIKE"

theorem tagHead_lexes : ∀ table ∈ ["tags_plaintext", "tags_encrypted"],
    Sql.Lexes ("(i.id in (SELECT item_id FROM " ++ table ++ " WHERE name = ? AND value ")
        (tagHead table) ∧
      ("(i.id in (SELECT item_id FROM " ++ table ++ " WHERE name = ? AND value ").toList.count
        '?' = 1 := by
  refine forall_mem_cons.mpr ⟨?_, forall_mem_singleton.mpr ?_⟩
  all_goals
    rw [Sql.Lexes, String.toList_append, String.toList_append, String.toList_ofList,
      String.toList_ofList, String.toList_ofList]
    decide +kernel

theorem Comparison.lexes (c : Comparison) :
    Sql.Lexes (c.sqlText ++ " ?))") [c.token, .param, .rparen, .rparen] := by
  cases c <;> decide

theorem Comparison.count (c : Comparison) : (c.sqlText ++ " ?))").toList.count '?' = 1 := by
  cases c <;> decide

theorem TagName.table_mem (name : TagName) :
    name.table ∈ ["tags_plaintext", "tags_encrypted"] := by
  cases name with
  | encryptedTagName name => exact mem_cons_of_mem _ mem_cons_self
  | plainTagName name => exact mem_cons_self

theorem Emits.of_append {head tail : String} {c : ClauseSpec} {ts ts' : List Sql.Token}
    (hl : Sql.Lexes head ts) (hn : head.toList.count '?' = 1) (hl' : Sql.Lexes tail ts')
    (ht : c.tokens = ts ++ ts') (hne : ts ≠ [])
    (hc : c.arguments.length = tail.toList.count '?' + 1) : Emits (head ++ tail) c := by
  refine ⟨ht ▸ hl.append hl', ?_, iff_of_false ?_ ?_⟩
  · rw [String.toList_append, count_append, hn, hc, Nat.add_comm]
  · intro h
    rw [String.append_eq_empty_iff] at h
    rw [h.1] at hn
    cases hn
  · rw [ht, append_eq_nil_iff]
    exact fun h => hne h.1

theorem emits_tagClause (c : Comparison) (name : TagName) (value : TargetValue) :
    Emits (tagClause name.table c.sqlText) (compareClause c name value) := by
  obtain ⟨hl, hn⟩ := tagHead_lexes name.table name.table_mem
  have htext : tagClause name.table c.sqlText =
      "(i.id in (SELECT item_id FROM " ++ name.table ++ " WHERE name = ? AND value " ++
        (c.sqlText ++ " ?))") := String.append_assoc
  rw [htext]
  exact .of_append hl hn c.lexes rfl (cons_ne_nil _ _) (by rw [c.count]; rfl)

theorem compiled_compare {c : Comparison} {name : TagName} {value : TargetValue}
    (h : (Operator.compare c name value).Sealed) :
    Compiled overflowChecks (.compare c name value) := by
  rw [Compiled, Operator.underflows, if_neg (by decide), Operator.clause]
  refine ⟨_, emits_tagClause c name value, fun arguments => ?_⟩
  cases h with
  | plain c name s => cases c <;> rfl
  | eq name value => rfl
  | neq name value => rfl

/-- The text the loop over `n` values appends. -/
def commaText (comma : ℕ → Bool) : ℕ → ℕ → String
  | _, 0 => ""
  | index, n + 1 => "?" ++ (if comma index then "," else "") ++ commaText comma (index + 1) n

theorem inLoop_eq {argument : TargetValue → Option Sql.Value} {error : String} {comma : ℕ → Bool}
    {index : ℕ} {values : List TargetValue} {inString : String} {arguments : List Sql.Value}
    (h : ∀ v ∈ values, argument v = some v.argument) :
    inLoop argument error comma index values inString arguments =
      .ok (inString ++ commaText comma index values.length,
        arguments ++ values.map TargetValue.argument) := by
  induction values generalizing index inString arguments with
  | nil => simp [inLoop, commaText]
  | cons v values ih =>
    have hv := h v mem_cons_self
    have ih := @ih (index + 1) (if comma index then inString ++ "?" ++ "," else inString ++ "?")
      (arguments ++ [v.argument]) (fun v hv => h v (mem_cons_of_mem _ hv))
    simp only [inLoop, hv, ofOption_some, ok_bind, ih, length_cons, commaText,
      map_cons, append_assoc, singleton_append]
    by_cases hc : comma index
    · simp only [if_pos hc, String.append_assoc]
    · simp only [if_neg hc, String.append_assoc, String.empty_append]

theorem lexes_commaText {comma : ℕ → Bool} {index n : ℕ}
    (h : ∀ i, index ≤ i → i < index + n → (comma i = true ↔ i + 1 < index + n)) :
    Sql.Lexes (commaText comma index n) (placeholders n) := by
  induction n generalizing index with
  | zero => exact Sql.Lexes.empty
  | succ n ih =>
    have hrest : Sql.Lexes (commaText comma (index + 1) n) (placeholders n) :=
      ih (fun i hi hi' => by
        rw [h i (by omega) (by omega)]
        omega)
    have hi := h index le_rfl (by omega)
    cases n with
    | zero =>
      have hc : ¬ comma index = true := fun hc => absurd (hi.mp hc) (by omega)
      rw [commaText, if_neg hc, commaText]
      decide
    | succ n =>
      have hc : comma index = true := hi.mpr (by omega)
      rw [commaText, if_pos hc, placeholders]
      exact Sql.Lexes.append (show Sql.Lexes ("?" ++ ",") [.param, .comma] by decide) hrest

theorem count_commaText (comma : ℕ → Bool) (index n : ℕ) :
    (commaText comma index n).toList.count '?' = n := by
  induction n generalizing index with
  | zero => rfl
  | succ n ih =>
    rw [commaText, String.toList_append, String.toList_append, count_append,
      count_append, ih]
    split_ifs
    · simp
      omega
    · simp
      omega

theorem inHead_lexes : ∀ table ∈ ["tags_plaintext", "tags_encrypted"],
    Sql.Lexes ("(i.id in (SELECT item_id FROM " ++ table ++ " WHERE name = ? AND value IN (")
        (tagHead table ++ [.in, .lparen]) ∧
      ("(i.id in (SELECT item_id FROM " ++ table ++
        " WHERE name = ? AND value IN (").toList.count '?' = 1 := by
  refine forall_mem_cons.mpr ⟨?_, forall_mem_singleton.mpr ?_⟩
  all_goals
    rw [Sql.Lexes, String.toList_append, String.toList_append, String.toList_ofList,
      String.toList_ofList, String.toList_ofList]
    decide +kernel

theorem emits_inClause {name : TagName} {values : List TargetValue} {inner : String}
    (hl : Sql.Lexes inner (valueTokens name values.length))
    (hc : inner.toList.count '?' = values.length) :
    Emits ("(i.id in (SELECT item_id FROM " ++ name.table ++ " WHERE name = ? AND value IN (" ++
      inner ++ ")))") (inClause name values) := by
  obtain ⟨hh, hn⟩ := inHead_lexes name.table name.table_mem
  have hend : Sql.Lexes ")))" [.rparen, .rparen, .rparen] := by decide
  rw [String.append_assoc]
  refine .of_append hh hn (hl.append hend) ?_ (by simp) ?_
  · simp [inClause]
  · rw [String.toList_append, count_append, hc]
    simp [inClause]

theorem compiled_in_plain (name : Bytes) (values : List String) :
    Compiled overflowChecks (.in (.plainTagName name) (values.map .unencrypted)) := by
  rw [Compiled, Operator.underflows, if_neg (by decide), Operator.clause]
  set targets := values.map TargetValue.unencrypted with ht
  have hv : ∀ v ∈ targets, unencryptedArgument v = some v.argument := by
    rw [ht]
    exact forall_mem_map.mpr (fun _ _ => rfl)
  have hcomma : ∀ i, 0 ≤ i → i < 0 + targets.length →
      (decide (i < targets.length - 1) = true ↔ i + 1 < 0 + targets.length) := by
    intro i _ _
    rw [decide_eq_true_eq]
    omega
  refine ⟨_, emits_inClause (lexes_commaText hcomma) (count_commaText _ 0 _), fun arguments => ?_⟩
  simp only [operatorToSql, inToSql, inLoop_eq hv, ok_bind, pure_eq_ok, inClause,
    append_assoc, singleton_append]
  rfl

theorem lexes_encryptedValues {n indexBeforeLast : ℕ} {name : Bytes}
    (h : wordSub 64 overflowChecks n 2 = (.ok indexBeforeLast : IndyResult ℕ)) :
    Sql.Lexes (commaText (fun index => index ≤ indexBeforeLast) 0 n)
      (valueTokens (.encryptedTagName name) n) := by
  match n, h with
  | 0, _ => exact Sql.Lexes.empty
  | 1, h =>
    have hw : 0 ≤ indexBeforeLast := Nat.zero_le _
    simp only [commaText, hw, decide_true, if_true, String.append_empty]
    exact (by decide : Sql.Lexes ("?" ++ ",") [.param, .comma])
  | n + 2, h =>
    rw [wordSub_of_le (by omega)] at h
    cases h
    refine lexes_commaText (fun i _ hi => ?_)
    rw [decide_eq_true_eq]
    omega

theorem compiled_in_encrypted (name : Bytes) (values : List Bytes) :
    Compiled overflowChecks (.in (.encryptedTagName name) (values.map .encrypted)) := by
  rw [Compiled, Operator.underflows, Operator.clause]
  set targets := values.map TargetValue.encrypted with ht
  have hv : ∀ v ∈ targets, encryptedArgument v = some v.argument := by
    rw [ht]
    exact forall_mem_map.mpr (fun _ _ => rfl)
  split_ifs with hu
  · obtain ⟨hc, hlen⟩ := Bool.and_eq_true_iff.mp hu
    intro arguments
    rw [operatorToSql, inToSql, hc, Outcome.wordSub_of_lt_checked (of_decide_eq_true hlen),
      panic_bind]
  · have hw : ∃ w, wordSub 64 overflowChecks targets.length 2 = (.ok w : IndyResult ℕ) := by
      rcases Nat.lt_or_ge targets.length 2 with hlt | hge
      · have hc : overflowChecks = false := by
          rw [decide_eq_true hlt, Bool.and_true] at hu
          exact Bool.eq_false_iff.mpr hu
        rw [hc]
        exact ⟨_, Outcome.wordSub_of_lt_wrapping hlt⟩
      · exact ⟨_, wordSub_of_le hge⟩
    obtain ⟨w, hw⟩ := hw
    refine ⟨_, emits_inClause (lexes_encryptedValues overflowChecks hw) (count_commaText _ 0 _),
      fun arguments => ?_⟩
    simp only [operatorToSql, inToSql, hw, inLoop_eq hv, ok_bind, pure_eq_ok,
      inClause, append_assoc, singleton_append]
    rfl

@[simp] theorem Operator.clauses_eq_map (operators : List Operator) :
    Operator.clauses operators = operators.map Operator.clause := by
  induction operators with
  | nil => rfl
  | cons o operators ih => rw [clauses, ih, map_cons]

@[simp] theorem Operator.underflowsAny_eq_any (operators : List Operator) :
    Operator.underflowsAny overflowChecks operators =
      operators.any (Operator.underflows overflowChecks) := by
  induction operators with
  | nil => rfl
  | cons o operators ih => rw [underflowsAny, ih, any_cons]

theorem joinTokens_map_cons {α : Type} (sep : Sql.Token) (f : α → List Sql.Token) (x : α)
    (l : List α) : joinTokens sep ((x :: l).map f) =
      f x ++ (if l.isEmpty then [] else sep :: joinTokens sep (l.map f)) := by
  cases l with
  | nil => exact (append_nil _).symm
  | cons y l => rfl

variable {operators : List Operator}

theorem joinLoop_panic {joinStr : String} (h : ∀ o ∈ operators, Compiled overflowChecks o)
    (hu : operators.any (Operator.underflows overflowChecks) = true) (s : String)
    (arguments : List Sql.Value) :
    joinLoop overflowChecks joinStr operators s arguments = .panic := by
  induction operators generalizing s arguments with
  | nil => cases hu
  | cons o operators ih =>
    have ho := h o mem_cons_self
    have ih := ih (fun o ho => h o (mem_cons_of_mem _ ho))
    rw [Compiled] at ho
    rw [any_cons, Bool.or_eq_true] at hu
    rw [joinLoop]
    by_cases huo : o.underflows overflowChecks = true
    · rw [if_pos huo] at ho
      rw [ho, panic_bind]
    · rw [if_neg huo] at ho
      obtain ⟨text, -, ho⟩ := ho
      rw [ho, ok_bind]
      exact ih (hu.resolve_left huo) _ _

theorem joinLoop_ok {joinStr : String} {sep : Sql.Token} (hsep : Sql.Lexes joinStr [sep])
    (hparam : joinStr.toList.count '?' = 0) (h : ∀ o ∈ operators, Compiled overflowChecks o)
    (hu : operators.any (Operator.underflows overflowChecks) = false) :
    ∃ text, Sql.Lexes text (joinTokens sep (operators.map (·.clause.tokens))) ∧
      text.toList.count '?' = (operators.flatMap (·.clause.arguments)).length ∧
      ∀ s arguments, joinLoop overflowChecks joinStr operators s arguments =
        .ok (s ++ text, arguments ++ operators.flatMap (·.clause.arguments)) := by
  induction operators with
  | nil => exact ⟨"", .empty, rfl, fun s arguments => by simp [joinLoop]⟩
  | cons o operators ih =>
    have ho := h o mem_cons_self
    rw [any_cons, Bool.or_eq_false_iff] at hu
    rw [Compiled, if_neg (by simp [hu.1])] at ho
    obtain ⟨head, hhead, ho⟩ := ho
    obtain ⟨tail, hlex, hcount, ih⟩ := ih (fun o ho => h o (mem_cons_of_mem _ ho)) hu.2
    rw [joinTokens_map_cons]
    cases operators with
    | nil =>
      refine ⟨head, ?_, ?_, fun s arguments => ?_⟩
      · simpa using hhead.lexes
      · simpa using hhead.count
      · rw [joinLoop, ho, ok_bind]
        simp [joinLoop]
    | cons o' operators =>
      refine ⟨head ++ (joinStr ++ tail), hhead.lexes.append (hsep.append hlex), ?_,
        fun s arguments => ?_⟩
      · rw [String.toList_append, String.toList_append, count_append, count_append,
          hhead.count, hparam, hcount, Nat.zero_add]
        exact length_append.symm
      · rw [joinLoop, ho, ok_bind]
        simp only [isEmpty_cons, Bool.false_eq_true, if_false, ih, flatMap_cons,
          append_assoc, String.append_assoc]

theorem compiled_join (joinStr : String) (sep : Sql.Token)
    (combine : Sql.Cond Unit → Sql.Cond Unit → Sql.Cond Unit) (hsep : Sql.Lexes joinStr [sep])
    (hparam : joinStr.toList.count '?' = 0) (h : ∀ o ∈ operators, Compiled overflowChecks o)
    {op : Operator} (hclause : op.clause = .join sep combine (operators.map Operator.clause))
    (hunder : op.underflows overflowChecks = operators.any (Operator.underflows overflowChecks))
    (hsql : ∀ arguments, operatorToSql overflowChecks op arguments =
      if operators.isEmpty then pure ("", arguments)
      else do
        let (s, arguments) ← joinLoop overflowChecks joinStr operators "(" arguments
        pure (s ++ ")", arguments)) :
    Compiled overflowChecks op := by
  rw [Compiled, hclause, hunder]
  cases operators with
  | nil => exact ⟨"", ⟨.empty, rfl, iff_of_true rfl rfl⟩, fun arguments => by
      simp [hsql, ClauseSpec.join]⟩
  | cons o operators =>
    split_ifs with hu
    · intro arguments
      rw [hsql, if_neg (by simp), joinLoop_panic overflowChecks h hu, panic_bind]
    · obtain ⟨text, hlex, hcount, hloop⟩ :=
        joinLoop_ok overflowChecks hsep hparam h (Bool.eq_false_iff.mpr hu)
      have hopen : Sql.Lexes "(" [.lparen] := by decide
      have hclose : Sql.Lexes ")" [.rparen] := by decide
      refine ⟨"(" ++ text ++ ")", ⟨?_, ?_, iff_of_false ?_ (cons_ne_nil _ _)⟩,
        fun arguments => ?_⟩
      · have hl := (hopen.append hlex).append hclose
        simpa [ClauseSpec.join, Function.comp_def] using hl
      · rw [String.toList_append, String.toList_append, count_append, count_append,
          hcount]
        simp [ClauseSpec.join, flatMap_def, Function.comp_def]
      · simp [String.append_eq_empty_iff]
      · rw [hsql, if_neg (by simp), hloop, ok_bind]
        simp [ClauseSpec.join, flatMap_def, Function.comp_def]

theorem compiled_not {o : Operator} (h : Compiled overflowChecks o) :
    Compiled overflowChecks (.not o) := by
  rw [Compiled] at h
  rw [Compiled, Operator.underflows, Operator.clause]
  split_ifs at h ⊢ with hu
  · intro arguments
    rw [operatorToSql, h, panic_bind]
  · obtain ⟨text, htext, h⟩ := h
    have hopen : Sql.Lexes "NOT (" [.not, .lparen] := by decide
    have hclose : Sql.Lexes ")" [.rparen] := by decide
    refine ⟨"NOT (" ++ text ++ ")", ⟨?_, ?_, iff_of_false ?_ (cons_ne_nil _ _)⟩,
      fun arguments => ?_⟩
    · have hl := (hopen.append htext.lexes).append hclose
      simpa [ClauseSpec.not] using hl
    · rw [String.toList_append, String.toList_append, count_append, count_append,
        htext.count]
      simp [ClauseSpec.not]
    · simp [String.append_eq_empty_iff]
    · rw [operatorToSql, h, ok_bind]
      rfl

theorem compiled_of_sealed {o : Operator} (h : o.Sealed) : Compiled overflowChecks o := by
  induction h with
  | @and operators h ih =>
    refine compiled_join overflowChecks " AND " .and .and (by decide) (by decide) ih ?_ ?_
      (fun arguments => ?_)
    · rw [Operator.clause, Operator.clauses_eq_map]
    · rw [Operator.underflows, Operator.underflowsAny_eq_any]
    · rw [operatorToSql]
  | @or operators h ih =>
    refine compiled_join overflowChecks " OR " .or .or (by decide) (by decide) ih ?_ ?_
      (fun arguments => ?_)
    · rw [Operator.clause, Operator.clauses_eq_map]
    · rw [Operator.underflows, Operator.underflowsAny_eq_any]
    · rw [operatorToSql]
  | not h ih => exact compiled_not overflowChecks ih
  | plain c name s => exact compiled_compare overflowChecks (.plain c name s)
  | eq name value => exact compiled_compare overflowChecks (.eq name value)
  | neq name value => exact compiled_compare overflowChecks (.neq name value)
  | inPlain name values => exact compiled_in_plain overflowChecks name values
  | inEncrypted name values => exact compiled_in_encrypted overflowChecks name values

end IndySdk.Wallet.Language
