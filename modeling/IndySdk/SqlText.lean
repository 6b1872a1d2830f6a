import IndySdk.Bytes

/-!
# Query texts of a relational engine

A fragment of SQL: one `SELECT` over one table, with conditions built from comparisons, membership
in a list or in a subquery, and the logical connectives. A text is cut into tokens by a machine
that reads one character at a time, parsed by recursive descent with the usual precedences, given
its arguments by position, and evaluated over tables of rows.
-/

open List

namespace Sql

inductive Token where
  | select | from | where | in | and | or | not | like | as
  | ident (name : String)
  | param | lparen | rparen | comma | dot | star
  | eq | ne | lt | le | gt | ge
  deriving DecidableEq, Repr

/-- What the tokenizer has read of an unfinished token. -/
inductive LexState where
  | start
  | word (chars : List Char)
  | less
  | greater
  | bang
  deriving DecidableEq, Repr

def isWordChar (c : Char) : Bool := c.isAlphanum || c = '_'

def wordToken (chars : List Char) : Token :=
  match String.ofList (chars.map Char.toLower) with
  | "select" => .select
  | "from" => .from
  | "where" => .where
  | "in" => .in
  | "and" => .and
  | "or" => .or
  | "not" => .not
  | "like" => .like
  | "as" => .as
  | name => .ident name

/-- The tokens a finished state stands for. -/
def LexState.flush : LexState → Option (List Token)
  | .start => some []
  | .word chars => some [wordToken chars]
  | .less => some [.lt]
  | .greater => some [.gt]
  | .bang => none

def singleToken : Char → Option (List Token)
  | ' ' => some []
  | '?' => some [.param]
  | '(' => some [.lparen]
  | ')' => some [.rparen]
  | ',' => some [.comma]
  | '.' => some [.dot]
  | '*' => some [.star]
  | _ => none

def LexState.step (st : LexState) (c : Char) : Option (LexState × List Token) :=
  if isWordChar c then
    match st with
    | .word chars => some (.word (chars ++ [c]), [])
    | _ => st.flush.map (fun ts => (.word [c], ts))
  else
    match c, st with
    | '=', .less => some (.start, [.le])
    | '=', .greater => some (.start, [.ge])
    | '=', .bang => some (.start, [.ne])
    | '=', _ => st.flush.map (fun ts => (.start, ts ++ [.eq]))
    | '<', _ => st.flush.map (fun ts => (.less, ts))
    | '>', _ => st.flush.map (fun ts => (.greater, ts))
    | '!', _ => st.flush.map (fun ts => (.bang, ts))
    | _, _ => do
      let before ← st.flush
      let token ← singleToken c
      pure (.start, before ++ token)

def LexState.run : LexState → List Char → Option (LexState × List Token)
  | st, [] => some (st, [])
  | st, c :: cs => do
    let (st, ts) ← st.step c
    let (st, ts') ← st.run cs
    pure (st, ts ++ ts')

def tokens (text : String) : Option (List Token) := do
  let (st, ts) ← LexState.start.run text.toList
  let last ← st.flush
  pure (ts ++ last)

theorem LexState.run_append (st : LexState) (a b : List Char) :
    st.run (a ++ b) = (do
      let (st, ts) ← st.run a
      let (st, ts') ← st.run b
      pure (st, ts ++ ts')) := by
  induction a generalizing st with
  | nil =>
    simp only [nil_append, run, Option.bind_eq_bind, Option.bind_some, Option.pure_def]
    cases st.run b <;> rfl
  | cons c a ih =>
    simp only [cons_append, run, Option.bind_eq_bind, Option.pure_def]
    cases hs : st.step c with
    | none => rfl
    | some p =>
      simp only [Option.bind_some, ih, Option.bind_eq_bind, Option.pure_def]
      cases ha : LexState.run p.1 a with
      | none => rfl
      | some q =>
        simp only [Option.bind_some]
        cases hb : LexState.run q.1 b with
        | none => rfl
        | some r => simp only [Option.bind_some, append_assoc]

/-- A text that is cut into whole tokens, so that any text may follow it. -/
def Lexes (text : String) (ts : List Token) : Prop :=
  LexState.start.run text.toList = some (.start, ts)

theorem Lexes.append {s t : String} {ss ts : List Token} (hs : Lexes s ss) (ht : Lexes t ts) :
    Lexes (s ++ t) (ss ++ ts) := by
  rw [Lexes] at hs ht
  rw [Lexes, String.toList_append, LexState.run_append, hs]
  simp only [Option.bind_eq_bind, Option.bind_some, ht, Option.pure_def]

theorem Lexes.empty : Lexes "" [] := rfl

theorem Lexes.tokens_eq {s : String} {ts : List Token} (h : Lexes s ts) : tokens s = some ts := by
  rw [tokens, h]
  simp [LexState.flush]

instance (text : String) (ts : List Token) : Decidable (Lexes text ts) :=
  inferInstanceAs (Decidable (_ = _))

example : Lexes "(i.id in (SELECT item_id FROM tags WHERE name = ? AND value >= ?))"
    [.lparen, .ident "i", .dot, .ident "id", .in, .lparen, .select, .ident "item_id", .from,
      .ident "tags", .where, .ident "name", .eq, .param, .and, .ident "value", .ge, .param,
      .rparen, .rparen] := by
  rw [Lexes, String.toList_ofList]
  rfl

inductive CompareOp where
  | eq | ne | lt | le | gt | ge | like
  deriving DecidableEq, Repr

/-- Scalars over what stands for a placeholder: nothing after parsing, a value after binding. -/
inductive Scalar (π : Type) where
  | param (p : π)
  | column (table : Option String) (name : String)
  deriving DecidableEq, Repr

inductive Cond (π : Type) where
  | compare (op : CompareOp) (l r : Scalar π)
  | inList (s : Scalar π) (l : List (Scalar π))
  | inSelect (s : Scalar π) (column table : String) (cond : Cond π)
  | and (l r : Cond π)
  | or (l r : Cond π)
  | not (c : Cond π)
  deriving Repr

inductive Projection where
  | columns (names : List String)
  | count
  deriving DecidableEq, Repr

/-- `SELECT projection FROM table AS scope WHERE cond`; projected columns are those of the
scope. -/
structure Select (π : Type) where
  projection : Projection
  table : String
  scope : String
  cond : Cond π
  deriving Repr

abbrev Reads (α : Type) := List Token → Option (α × List Token)

def parseScalar : Reads (Scalar Unit)
  | .param :: ts => some (.param (), ts)
  | .ident t :: .dot :: .ident n :: ts => some (.column (some t) n, ts)
  | .ident n :: ts => some (.column none n, ts)
  | _ => none

def compareOp : Token → Option CompareOp
  | .eq => some .eq
  | .ne => some .ne
  | .lt => some .lt
  | .le => some .le
  | .gt => some .gt
  | .ge => some .ge
  | .like => some .like
  | _ => none

/-- The rest of a list of scalars whose first element is required. -/
def parseScalars : ℕ → Reads (List (Scalar Unit))
  | 0, _ => none
  | fuel + 1, ts => do
    let (s, ts) ← parseScalar ts
    match ts with
    | .rparen :: ts => some ([s], ts)
    | .comma :: ts => do
      let (l, ts) ← parseScalars fuel ts
      some (s :: l, ts)
    | _ => none

/-- The operand of `IN` after its opening parenthesis, when it is a list; it may be empty. -/
def parseList (fuel : ℕ) : Reads (List (Scalar Unit))
  | .rparen :: ts => some ([], ts)
  | ts => parseScalars fuel ts

mutual

def parseOr : ℕ → Reads (Cond Unit)
  | 0, _ => none
  | fuel + 1, ts => do
    let (c, ts) ← parseAnd fuel ts
    parseOrRest fuel c ts

def parseOrRest : ℕ → Cond Unit → Reads (Cond Unit)
  | 0, _, _ => none
  | fuel + 1, c, .or :: ts => do
    let (d, ts) ← parseAnd fuel ts
    parseOrRest fuel (.or c d) ts
  | _ + 1, c, ts => some (c, ts)

def parseAnd : ℕ → Reads (Cond Unit)
  | 0, _ => none
  | fuel + 1, ts => do
    let (c, ts) ← parseNot fuel ts
    parseAndRest fuel c ts

def parseAndRest : ℕ → Cond Unit → Reads (Cond Unit)
  | 0, _, _ => none
  | fuel + 1, c, .and :: ts => do
    let (d, ts) ← parseNot fuel ts
    parseAndRest fuel (.and c d) ts
  | _ + 1, c, ts => some (c, ts)

def parseNot : ℕ → Reads (Cond Unit)
  | 0, _ => none
  | fuel + 1, .not :: ts => do
    let (c, ts) ← parseNot fuel ts
    some (.not c, ts)
  | fuel + 1, ts => parsePrimary fuel ts

def parsePrimary : ℕ → Reads (Cond Unit)
  | 0, _ => none
  | fuel + 1, .lparen :: ts => do
    let (c, ts) ← parseOr fuel ts
    match ts with
    | .rparen :: ts => some (c, ts)
    | _ => none
  | fuel + 1, ts => do
    let (s, ts) ← parseScalar ts
    match ts with
    | .in :: .lparen :: .select :: .ident col :: .from :: .ident table :: .where :: ts => do
      let (c, ts) ← parseOr fuel ts
      match ts with
      | .rparen :: ts => some (.inSelect s col table c, ts)
      | _ => none
    | .in :: .lparen :: ts => do
      let (l, ts) ← parseList fuel ts
      some (.inList s l, ts)
    | t :: ts => do
      let op ← compareOp t
      let (r, ts) ← parseScalar ts
      some (.compare op s r, ts)
    | [] => none

end

/-- Qualified columns, separated by commas. -/
def parseColumns : List Token → Option (List (String × String) × List Token)
  | .ident t :: .dot :: .ident n :: .comma :: ts => do
    let (l, ts) ← parseColumns ts
    some ((t, n) :: l, ts)
  | .ident t :: .dot :: .ident n :: ts => some ([(t, n)], ts)
  | _ => none

def parseProjection : List Token → Option (List String × Projection × List Token)
  | .ident "count" :: .lparen :: .star :: .rparen :: ts => some ([], .count, ts)
  | ts => do
    let (l, ts) ← parseColumns ts
    some (l.map Prod.fst, .columns (l.map Prod.snd), ts)

/-- Each token can be the start of at most six nested calls. -/
def parseFuel (ts : List Token) : ℕ := 6 * ts.length + 6

def parseCond (ts : List Token) : Option (Cond Unit) := do
  let (c, ts') ← parseOr (parseFuel ts) ts
  if ts' = [] then some c else none

def parseSelect (ts : List Token) : Option (Select Unit) :=
  match ts with
  | .select :: ts => do
    let (scopes, projection, ts) ← parseProjection ts
    match ts with
    | .from :: .ident table :: .as :: .ident scope :: .where :: ts =>
      if scopes.all (fun s => s = scope) then do
        let cond ← parseCond ts
        some ⟨projection, table, scope, cond⟩
      else none
    | _ => none
  | _ => none

example : ((tokens "SELECT i.id FROM items as i WHERE i.type = ? AND NOT (i.id in (?,?))").bind
    parseSelect).isSome = true := by
  rw [tokens, String.toList_ofList]
  decide +kernel

example : ((tokens "SELECT count(*) FROM items as i WHERE i.type = ? AND ()").bind
    parseSelect).isSome = false := by
  rw [tokens, String.toList_ofList]
  decide +kernel

/-- What placeholders are bound to and columns hold. -/
inductive Value where
  | int (n : ℕ)
  | text (s : String)
  | blob (b : Bytes)
  deriving DecidableEq, Repr

namespace Value

/-- Integers come before texts and texts before blobs. -/
def lt : Value → Value → Bool
  | .int a, .int b => a < b
  | .int _, _ => true
  | .text _, .int _ => false
  | .text a, .text b => a < b
  | .text _, .blob _ => true
  | .blob a, .blob b => a < b
  | .blob _, _ => false

end Value

section Bind

variable {π : Type}

def bindScalar : Scalar Unit → List π → Option (Scalar π × List π)
  | .param _, a :: as => some (.param a, as)
  | .param _, [] => none
  | .column t n, as => some (.column t n, as)

def bindScalars : List (Scalar Unit) → List π → Option (List (Scalar π) × List π)
  | [], as => some ([], as)
  | s :: l, as => do
    let (s, as) ← bindScalar s as
    let (l, as) ← bindScalars l as
    some (s :: l, as)

/-- Give the placeholders of a condition their arguments from left to right. -/
def bindCond : Cond Unit → List π → Option (Cond π × List π)
  | .compare op l r, as => do
    let (l, as) ← bindScalar l as
    let (r, as) ← bindScalar r as
    some (.compare op l r, as)
  | .inList s l, as => do
    let (s, as) ← bindScalar s as
    let (l, as) ← bindScalars l as
    some (.inList s l, as)
  | .inSelect s col table c, as => do
    let (s, as) ← bindScalar s as
    let (c, as) ← bindCond c as
    some (.inSelect s col table c, as)
  | .and l r, as => do
    let (l, as) ← bindCond l as
    let (r, as) ← bindCond r as
    some (.and l r, as)
  | .or l r, as => do
    let (l, as) ← bindCond l as
    let (r, as) ← bindCond r as
    some (.or l r, as)
  | .not c, as => do
    let (c, as) ← bindCond c as
    some (.not c, as)

/-- Bind a statement to exactly as many arguments as it has placeholders. -/
def Select.bind (q : Select Unit) (args : List π) : Option (Select π) := do
  let (cond, rest) ← bindCond q.cond args
  if rest = [] then some { q with cond := cond } else none

end Bind

abbrev Row := String → Option Value

/-- The tables of a database, by name. -/
abbrev Tables := String → Option (List Row)

/-- The rows in scope, innermost first, under the names they go by. -/
abbrev Scopes := List (String × Row)

def filterRows {α : Type} (f : α → Option Bool) : List α → Option (List α)
  | [] => some []
  | x :: l => do
    let keep ← f x
    let l ← filterRows f l
    some (if keep then x :: l else l)

variable (like : String → String → Bool) (tables : Tables)

def evalScalar (scopes : Scopes) : Scalar Value → Option Value
  | .param v => some v
  | .column (some t) n => (scopes.find? (fun s => s.1 = t)).bind (fun s => s.2 n)
  | .column none n => scopes.findSome? (fun s => s.2 n)

def CompareOp.eval : CompareOp → Value → Value → Option Bool
  | .eq, a, b => some (a = b)
  | .ne, a, b => some (a ≠ b)
  | .lt, a, b => some (a.lt b)
  | .le, a, b => some (!b.lt a)
  | .gt, a, b => some (b.lt a)
  | .ge, a, b => some (!a.lt b)
  | .like, .text s, .text pattern => some (like s pattern)
  | .like, _, _ => none

def evalCond : Scopes → Cond Value → Option Bool
  | scopes, .compare op l r => do
    let a ← evalScalar scopes l
    let b ← evalScalar scopes r
    op.eval like a b
  | scopes, .inList s l => do
    let a ← evalScalar scopes s
    let bs ← l.mapM (evalScalar scopes)
    some (a ∈ bs)
  | scopes, .inSelect s col table c => do
    let a ← evalScalar scopes s
    let rows ← tables table
    let hits ← filterRows (fun row => evalCond ((table, row) :: scopes) c) rows
    let bs ← hits.mapM (fun row => row col)
    some (a ∈ bs)
  | scopes, .and l r => do
    let a ← evalCond scopes l
    let b ← evalCond scopes r
    some (a && b)
  | scopes, .or l r => do
    let a ← evalCond scopes l
    let b ← evalCond scopes r
    some (a || b)
  | scopes, .not c => do
    let a ← evalCond scopes c
    some (!a)

def Select.eval (q : Select Value) : Option (List (List Value)) := do
  let rows ← tables q.table
  let hits ← filterRows (fun row => evalCond like tables [(q.scope, row)] q.cond) rows
  match q.projection with
  | .count => some [[.int hits.length]]
  | .columns names => hits.mapM (fun row => names.mapM row)

/-- Run a query text with its arguments. -/
def query (text : String) (args : List Value) : Option (List (List Value)) := do
  let ts ← tokens text
  let q ← parseSelect ts
  let q ← q.bind args
  q.eval like tables

theorem mapM_eq_some {α β : Type} {f : α → Option β} {g : α → β} {l : List α}
    (h : ∀ x ∈ l, f x = some (g x)) : l.mapM f = some (l.map g) := by
  induction l with
  | nil => rfl
  | cons x l ih =>
    rw [mapM_cons, h x mem_cons_self, ih (fun y hy => h y (mem_cons_of_mem _ hy))]
    rfl

section Rules

variable {like : String → String → Bool} {tables : Tables} {ρ : Type} {rows : List ρ}
  {row : ρ → Row}
  {p : ρ → Bool}

theorem filterRows_map {f : Row → Option Bool} (h : ∀ r ∈ rows, f (row r) = some (p r)) :
    filterRows f (rows.map row) = some ((rows.filter p).map row) := by
  induction rows with
  | nil => rfl
  | cons r rows ih =>
    have hr := ih (fun s hs => h s (mem_cons_of_mem _ hs))
    simp only [map_cons, filterRows, h r mem_cons_self, hr, Option.bind_eq_bind,
      Option.bind_some, filter_cons]
    split_ifs <;> rfl

theorem evalCond_inSelect {scopes : Scopes} {s : Scalar Value} {col table : String}
    {c : Cond Value} {a : Value} {projected : ρ → Value} (hs : evalScalar scopes s = some a)
    (ht : tables table = some (rows.map row))
    (hp : ∀ r ∈ rows, evalCond like tables ((table, row r) :: scopes) c = some (p r))
    (hc : ∀ r ∈ rows, row r col = some (projected r)) :
    evalCond like tables scopes (.inSelect s col table c) =
      some (rows.any (fun r => p r && decide (projected r = a))) := by
  have hhits : filterRows (fun row => evalCond like tables ((table, row) :: scopes) c)
      (rows.map row) = some ((rows.filter p).map row) := filterRows_map hp
  have hids : ((rows.filter p).map row).mapM (fun row => row col) =
      some ((rows.filter p).map projected) := by
    rw [mapM_map]
    exact mapM_eq_some (fun r hr => hc r (mem_filter.mp hr).1)
  rw [evalCond, hs, ht]
  simp only [Option.bind_eq_bind, Option.bind_some, hhits, hids]
  rw [Option.some_inj, Bool.eq_iff_iff]
  simp only [decide_eq_true_eq, mem_map, mem_filter, any_eq_true, Bool.and_eq_true,
    and_assoc]

theorem Select.eval_eq {q : Select Value} (ht : tables q.table = some (rows.map row))
    (hp : ∀ r ∈ rows, evalCond like tables [(q.scope, row r)] q.cond = some (p r)) :
    q.eval like tables =
      match q.projection with
      | .count => some [[.int (rows.filter p).length]]
      | .columns names => (rows.filter p).mapM (fun r => names.mapM (row r)) := by
  have hhits : filterRows (fun row => evalCond like tables [(q.scope, row)] q.cond)
      (rows.map row) = some ((rows.filter p).map row) := filterRows_map hp
  simp only [Select.eval, ht, Option.bind_eq_bind, Option.bind_some, hhits, length_map,
    mapM_map]
  rfl

theorem parses_of_query {text : String} {args : List Value} {result : List (List Value)}
    (h : query like tables text args = some result) :
    ((tokens text).bind parseSelect).isSome = true := by
  obtain ⟨ts, hts, h⟩ := Option.bind_eq_some_iff.mp h
  obtain ⟨q, hq, -⟩ := Option.bind_eq_some_iff.mp h
  rw [hts, Option.bind_some, hq, Option.isSome_some]

end Rules

end Sql
