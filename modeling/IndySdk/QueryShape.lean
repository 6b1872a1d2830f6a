import IndySdk.ClauseMeaning

/-!
# Queries that compile to an operand

An encrypted operator compiles without aborting to a text that parses exactly when it has no empty
list of operators and no list of values whose placeholders the compiler counts wrongly. The same is
stated on the JSON of the query.
-/

namespace IndySdk.Wallet.Language

open Outcome List Operator

variable (overflowChecks : Bool)

mutual

/-- The operator compiles to an operand. -/
def Operator.compiles : Operator → Bool
  | .and operators => !operators.isEmpty && Operator.compilesAll operators
  | .or operators => !operators.isEmpty && Operator.compilesAll operators
  | .not operator => operator.compiles
  | .compare _ _ _ => true
  | .in (.plainTagName _) _ => true
  | .in (.encryptedTagName _) values =>
    decide (2 ≤ values.length) || (values.isEmpty && !overflowChecks)

def Operator.compilesAll : List Operator → Bool
  | [] => true
  | o :: operators => o.compiles && Operator.compilesAll operators

end

@[simp] theorem Operator.compilesAll_eq_all (operators : List Operator) :
    Operator.compilesAll overflowChecks operators =
      operators.all (Operator.compiles overflowChecks) := by
  induction operators with
  | nil => rfl
  | cons o operators ih => rw [compilesAll, ih, all_cons]

theorem mapM_isSome {α β : Type} {f : α → Option β} {l : List α} :
    (l.mapM f).isSome = l.all (fun x => (f x).isSome) := by
  induction l with
  | nil => rfl
  | cons x l ih =>
    rw [mapM_cons, all_cons, ← ih]
    cases f x with
    | none => rfl
    | some y => cases l.mapM f <;> rfl

theorem join_isSome (sep : Sql.Token) (combine : Sql.Cond Unit → Sql.Cond Unit → Sql.Cond Unit)
    (clauses : List ClauseSpec) :
    (ClauseSpec.join sep combine clauses).cond.isSome =
      (!clauses.isEmpty && clauses.all (·.cond.isSome)) := by
  cases clauses with
  | nil => rfl
  | cons c clauses =>
    rw [all_cons, ← mapM_isSome]
    simp only [ClauseSpec.join]
    cases c.cond with
    | none => rfl
    | some d => cases clauses.mapM ClauseSpec.cond <;> rfl

theorem all_eq_all {α : Type} {f g : α → Bool} {l : List α} (h : ∀ x ∈ l, f x = g x) :
    l.all f = l.all g := by
  induction l with
  | nil => rfl
  | cons x l ih =>
    rw [all_cons, all_cons, h x mem_cons_self,
      ih (fun y hy => h y (mem_cons_of_mem _ hy))]

theorem all_and_not_any {α : Type} {f g : α → Bool} (l : List α) :
    (!l.any f && l.all g) = l.all (fun x => !f x && g x) := by
  induction l with
  | nil => rfl
  | cons x l ih =>
    simp only [any_cons, all_cons, ← ih]
    cases f x <;> cases g x <;> simp

variable {o : Operator}

theorem compiles_of_sealed (h : o.Sealed) :
    o.compiles overflowChecks = (!o.underflows overflowChecks && o.clause.cond.isSome) := by
  induction h with
  | @and operators h ih =>
    have hall : operators.all (Operator.compiles overflowChecks) =
        operators.all (fun o => !o.underflows overflowChecks && o.clause.cond.isSome) :=
      all_eq_all ih
    simp only [Operator.compiles, underflows, clause, join_isSome,
      Operator.compilesAll_eq_all, underflowsAny_eq_any, clauses_eq_map,
      all_map, isEmpty_map, hall, ← all_and_not_any, Function.comp_def]
    rw [Bool.and_left_comm]
  | @or operators h ih =>
    have hall : operators.all (Operator.compiles overflowChecks) =
        operators.all (fun o => !o.underflows overflowChecks && o.clause.cond.isSome) :=
      all_eq_all ih
    simp only [Operator.compiles, underflows, clause, join_isSome,
      Operator.compilesAll_eq_all, underflowsAny_eq_any, clauses_eq_map,
      all_map, isEmpty_map, hall, ← all_and_not_any, Function.comp_def]
    rw [Bool.and_left_comm]
  | not h ih =>
    rw [Operator.compiles, ih, underflows, clause, ClauseSpec.not,
      Option.isSome_map]
  | plain c name s => rfl
  | eq name value => rfl
  | neq name value => rfl
  | inPlain name values => rfl
  | inEncrypted name values =>
    cases values with
    | nil => cases overflowChecks <;> rfl
    | cons value values =>
      cases values with
      | nil => cases overflowChecks <;> rfl
      | cons value' values =>
        simp [Operator.compiles, underflows, clause, inClause, parsedValues]

theorem compiles_encrypted (wc : WalletCrypto) (keys : Keys) (h : o.Parsed) :
    (o.encrypted wc keys).compiles overflowChecks = o.compiles overflowChecks := by
  induction h with
  | and h ih =>
    simp only [encrypted, Operator.compiles, encryptedList_eq_map,
      Operator.compilesAll_eq_all, isEmpty_map, all_map]
    rw [Function.comp_def, all_eq_all ih]
  | or h ih =>
    simp only [encrypted, Operator.compiles, encryptedList_eq_map,
      Operator.compilesAll_eq_all, isEmpty_map, all_map]
    rw [Function.comp_def, all_eq_all ih]
  | not h ih => rw [encrypted, Operator.compiles, Operator.compiles, ih]
  | compare h c hc s => rw [encrypted, Operator.compiles, Operator.compiles]
  | @«in» key name h values =>
    cases name <;> simp [encrypted, encryptName, Operator.compiles]

/-- A list of values in a query compiles. -/
def compilesTagObject (key : String) : List (String × Json) → Bool
  | [(_, .arr values)] =>
    isPlain key || decide (2 ≤ values.length) || (values.isEmpty && !overflowChecks)
  | _ => true

mutual

/-- No object or list of a query is empty, and its lists of values compile. -/
def compilesMembers : List (String × Json) → Bool
  | [] => true
  | (key, value) :: members => compilesMember key value && compilesMembers members

def compilesMember (key : String) : Json → Bool
  | .arr values => !values.isEmpty && compilesObjects values
  | .obj members =>
    if key = "$not" then !members.isEmpty && compilesMembers members
    else compilesTagObject overflowChecks key members
  | _ => true

def compilesObjects : List Json → Bool
  | [] => true
  | .obj members :: values =>
    (!members.isEmpty && compilesMembers members) && compilesObjects values
  | _ :: values => compilesObjects values

end

theorem topOperator_compiles (operators : List Operator) :
    (topOperator operators).compiles overflowChecks =
      (!operators.isEmpty && operators.all (Operator.compiles overflowChecks)) := by
  match operators with
  | [] => rfl
  | [o] => simp [topOperator, optimise]
  | _ :: _ :: _ => simp [topOperator, optimise, Operator.compiles]

theorem stringValues_length {values : List Json} {l : List String}
    (h : stringValues values = some l) : l.length = values.length := by
  induction values generalizing l with
  | nil =>
    cases h
    rfl
  | cons v values ih =>
    cases v with
    | str s =>
      obtain ⟨l', hl', rfl⟩ := Option.map_eq_some_iff.mp h
      rw [length_cons, length_cons, ih hl']
    | _ => cases h

variable {key : String} {members : List (String × Json)} {operators : List Operator}

theorem TagName.ofText_cases {name : TagName} (h : TagName.ofText key = .ok name) :
    (isPlain key = true ∧ ∃ b, name = .plainTagName b) ∨
      (isPlain key = false ∧ ∃ b, name = .encryptedTagName b) := by
  rw [TagName.ofText] at h
  split_ifs at h with he hp
  · cases h
    exact .inl ⟨hp, _, rfl⟩
  · cases h
    exact .inr ⟨Bool.eq_false_iff.mpr hp, _, rfl⟩

theorem parseTagObject_compiles (h : parseTagObject key members = .ok o) :
    o.compiles overflowChecks = compilesTagObject overflowChecks key members := by
  unfold parseTagObject at h
  split at h
  · next operatorName value =>
    unfold parseSingleOperator at h
    split at h
    · unfold parseComparison at h
      split at h
      · obtain ⟨name, hname, h⟩ := bind_eq_ok_iff.mp h
        split at h <;> cases h <;> rfl
      · cases h
    · split_ifs at h
      split at h
      · next values =>
        obtain ⟨targets, ht, h⟩ := bind_eq_ok_iff.mp h
        obtain ⟨name, hname, h⟩ := bind_eq_ok_iff.mp h
        cases h
        have hlen := stringValues_length (ofOption_eq_ok.mp ht)
        have hempty : targets.isEmpty = values.isEmpty := by
          rw [Bool.eq_iff_iff, isEmpty_iff_length_eq_zero, isEmpty_iff_length_eq_zero,
            hlen]
        rw [compilesTagObject]
        rcases TagName.ofText_cases hname with ⟨hp, b, rfl⟩ | ⟨hp, b, rfl⟩
        · rw [hp]
          rfl
        · rw [hp, Operator.compiles, length_map, isEmpty_map, hlen, hempty,
            Bool.false_or]
      · cases h
  · cases h

theorem parseMembers_isEmpty (h : parseMembers members = .ok operators) :
    operators.isEmpty = members.isEmpty := by
  cases members with
  | nil =>
    cases h
    rfl
  | cons m members =>
    obtain ⟨o, -, h⟩ := bind_eq_ok_iff.mp h
    obtain ⟨rest, -, h⟩ := bind_eq_ok_iff.mp h
    cases h
    rfl

theorem parseObjects_isEmpty {operatorName : String} {values : List Json}
    (h : parseObjects operatorName values = .ok operators) :
    operators.isEmpty = values.isEmpty := by
  cases values with
  | nil =>
    cases h
    rfl
  | cons v values =>
    cases v with
    | obj members =>
      obtain ⟨o, -, h⟩ := bind_eq_ok_iff.mp h
      obtain ⟨rest, -, h⟩ := bind_eq_ok_iff.mp h
      cases h
      rfl
    | _ => cases h

mutual

theorem parseMembers_compiles : ∀ (members : List (String × Json)) (operators : List Operator),
    parseMembers members = .ok operators →
      operators.all (Operator.compiles overflowChecks) = compilesMembers overflowChecks members
  | [], operators, h => by
    cases h
    rfl
  | (key, value) :: members, operators, h => by
    rw [parseMembers] at h
    obtain ⟨o, ho, h⟩ := bind_eq_ok_iff.mp h
    obtain ⟨rest, hrest, h⟩ := bind_eq_ok_iff.mp h
    cases h
    rw [all_cons, compilesMembers, parseOperator_compiles key value o ho,
      parseMembers_compiles members rest hrest]

theorem parseOperator_compiles (key : String) : ∀ (value : Json) (o : Operator),
    parseOperator key value = .ok o →
      o.compiles overflowChecks = compilesMember overflowChecks key value
  | .arr values, o, h => by
    rw [parseOperator] at h
    split_ifs at h
    · obtain ⟨operators, hops, rfl⟩ := map_eq_ok_iff.mp h
      rw [Operator.compiles, compilesMember, Operator.compilesAll_eq_all,
        parseObjects_isEmpty hops, parseObjects_compiles "$and" values operators hops]
    · obtain ⟨operators, hops, rfl⟩ := map_eq_ok_iff.mp h
      rw [Operator.compiles, compilesMember, Operator.compilesAll_eq_all,
        parseObjects_isEmpty hops, parseObjects_compiles "$or" values operators hops]
  | .obj members, o, h => by
    rw [parseOperator] at h
    split_ifs at h with handor hnot
    · obtain ⟨operators, hops, rfl⟩ := map_eq_ok_iff.mp h
      rw [Operator.compiles, compilesMember, if_pos hnot, topOperator_compiles,
        parseMembers_isEmpty hops, parseMembers_compiles members operators hops]
    · rw [compilesMember, if_neg hnot]
      exact parseTagObject_compiles overflowChecks h
  | .str s, o, h => by
    rw [parseOperator] at h
    split_ifs at h
    obtain ⟨name, -, rfl⟩ := map_eq_ok_iff.mp h
    rfl
  | .null, o, h => by
    simp only [parseOperator] at h
    split_ifs at h
  | .bool b, o, h => by
    simp only [parseOperator] at h
    split_ifs at h
  | .int i, o, h => by
    simp only [parseOperator] at h
    split_ifs at h
  | .float t, o, h => by
    simp only [parseOperator] at h
    split_ifs at h

theorem parseObjects_compiles (operatorName : String) : ∀ (values : List Json)
    (operators : List Operator), parseObjects operatorName values = .ok operators →
      operators.all (Operator.compiles overflowChecks) = compilesObjects overflowChecks values
  | [], operators, h => by
    cases h
    rfl
  | .obj members :: values, operators, h => by
    rw [parseObjects] at h
    obtain ⟨ops, hops, h⟩ := bind_eq_ok_iff.mp h
    obtain ⟨rest, hrest, h⟩ := bind_eq_ok_iff.mp h
    cases h
    rw [all_cons, compilesObjects, topOperator_compiles, parseMembers_isEmpty hops,
      parseMembers_compiles members ops hops, parseObjects_compiles operatorName values rest hrest]
  | .null :: _, _, h | .bool _ :: _, _, h | .int _ :: _, _, h | .float _ :: _, _, h
  | .str _ :: _, _, h | .arr _ :: _, _, h => by cases h

end

theorem topOperator_eq_and_nil :
    topOperator operators = .and [] ↔ operators = [] ∨ operators = [.and []] := by
  match operators with
  | [] => simp [topOperator, optimise]
  | [o] => simp [topOperator, optimise]
  | _ :: _ :: _ => simp [topOperator, optimise]

theorem topOperator_eq_or_nil :
    topOperator operators = .or [] ↔ operators = [.or []] := by
  match operators with
  | [] => simp [topOperator, optimise]
  | [o] => simp [topOperator, optimise]
  | _ :: _ :: _ => simp [topOperator, optimise]

theorem parseTagObject_cases (h : parseTagObject key members = .ok o) :
    (∃ c name value, o = .compare c name value) ∨ ∃ name values, o = .in name values := by
  unfold parseTagObject at h
  split at h
  · unfold parseSingleOperator at h
    split at h
    · unfold parseComparison at h
      split at h
      · obtain ⟨name, hname, h⟩ := bind_eq_ok_iff.mp h
        split at h <;> cases h <;> exact .inl ⟨_, _, _, rfl⟩
      · cases h
    · split_ifs at h
      split at h
      · obtain ⟨targets, ht, h⟩ := bind_eq_ok_iff.mp h
        obtain ⟨name, hname, h⟩ := bind_eq_ok_iff.mp h
        cases h
        exact .inr ⟨_, _, rfl⟩
      · cases h
  · cases h

theorem parseOperator_nil {value : Json} (h : parseOperator key value = .ok o) :
    (o = .and [] ↔ key = "$and" ∧ value = .arr []) ∧
      (o = .or [] ↔ key = "$or" ∧ value = .arr []) := by
  cases value with
  | arr values =>
    rw [parseOperator] at h
    split_ifs at h with hand hor
    · obtain ⟨operators, hops, rfl⟩ := map_eq_ok_iff.mp h
      have hempty := parseObjects_isEmpty hops
      rw [Bool.eq_iff_iff, List.isEmpty_iff, List.isEmpty_iff] at hempty
      simp [hand, hempty]
    · obtain ⟨operators, hops, rfl⟩ := map_eq_ok_iff.mp h
      have hempty := parseObjects_isEmpty hops
      rw [Bool.eq_iff_iff, List.isEmpty_iff, List.isEmpty_iff] at hempty
      simp [hor, hempty]
  | obj members =>
    rw [parseOperator] at h
    split_ifs at h
    · obtain ⟨operators, -, rfl⟩ := map_eq_ok_iff.mp h
      simp
    · rcases parseTagObject_cases h with ⟨c, name, value, rfl⟩ | ⟨name, values, rfl⟩
      · simp
      · simp
  | str s =>
    rw [parseOperator] at h
    split_ifs at h
    obtain ⟨name, -, rfl⟩ := map_eq_ok_iff.mp h
    simp
  | _ =>
    simp only [parseOperator] at h
    split_ifs at h

theorem parseMembers_eq_singleton (h : parseMembers members = .ok [o]) :
    ∃ key value, members = [(key, value)] ∧ parseOperator key value = .ok o := by
  cases members with
  | nil => cases h
  | cons m members =>
    obtain ⟨o', ho, h⟩ := bind_eq_ok_iff.mp h
    obtain ⟨rest, hrest, h⟩ := bind_eq_ok_iff.mp h
    cases h
    have hempty := parseMembers_isEmpty hrest
    rw [isEmpty_nil, eq_comm, List.isEmpty_iff] at hempty
    rw [hempty]
    exact ⟨_, _, rfl, ho⟩

variable {map : List (String × Json)}

theorem parse_eq_and_nil (h : parse map = .ok o) :
    o = .and [] ↔ map = [] ∨ map = [("$and", .arr [])] := by
  obtain ⟨operators, hops, h⟩ := bind_eq_ok_iff.mp h
  cases h
  rw [topOperator_eq_and_nil]
  constructor
  · rintro (rfl | rfl)
    · have hempty := parseMembers_isEmpty hops
      rw [isEmpty_nil, eq_comm, List.isEmpty_iff] at hempty
      exact .inl hempty
    · obtain ⟨key, value, rfl, ho⟩ := parseMembers_eq_singleton hops
      obtain ⟨rfl, rfl⟩ := (parseOperator_nil ho).1.mp rfl
      exact .inr rfl
  · rintro (rfl | rfl)
    · cases hops
      exact .inl rfl
    · cases hops
      exact .inr rfl

theorem parse_eq_or_nil (h : parse map = .ok o) :
    o = .or [] ↔ map = [("$or", .arr [])] := by
  obtain ⟨operators, hops, h⟩ := bind_eq_ok_iff.mp h
  cases h
  rw [topOperator_eq_or_nil]
  constructor
  · rintro rfl
    obtain ⟨key, value, rfl, ho⟩ := parseMembers_eq_singleton hops
    obtain ⟨rfl, rfl⟩ := (parseOperator_nil ho).2.mp rfl
    rfl
  · rintro rfl
    cases hops
    rfl

theorem parse_compiles (h : parse map = .ok o) :
    o.compiles overflowChecks = (!map.isEmpty && compilesMembers overflowChecks map) := by
  obtain ⟨operators, hops, h⟩ := bind_eq_ok_iff.mp h
  cases h
  rw [topOperator_compiles, parseMembers_isEmpty hops,
    parseMembers_compiles overflowChecks map operators hops]

end IndySdk.Wallet.Language
