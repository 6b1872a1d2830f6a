import IndySdk.Json
import IndySdk.WalletEncryption

/-!
# The wallet query language

A query is a JSON object. It is parsed into an operator tree, in which the members of an object
become a conjunction; a conjunction of one operator is replaced by that operator. The meaning of a
query is stated on the JSON itself and compared with the meaning of the parsed operator.
-/

namespace IndySdk.Wallet.Language

open Outcome Option

inductive TagName where
  | encryptedTagName (name : Bytes)
  | plainTagName (name : Bytes)
  deriving DecidableEq

inductive TargetValue where
  | unencrypted (s : String)
  | encrypted (b : Bytes)
  deriving DecidableEq

/-- The operators that compare one tag with one value. -/
inductive Comparison where
  | eq | neq | gt | gte | lt | lte | like
  deriving DecidableEq

inductive Operator where
  | and (operators : List Operator)
  | or (operators : List Operator)
  | not (operator : Operator)
  | compare (c : Comparison) (name : TagName) (value : TargetValue)
  | in (name : TagName) (values : List TargetValue)

def TagName.ofText (s : String) : IndyResult TagName :=
  if s = "" ∨ (isPlain s ∧ (Bytes.ofText s).length = 1) then
    .err (errMsg .walletQueryError "Tag name must not be empty")
  else if isPlain s then .ok (.plainTagName ((Bytes.ofText s).drop 1))
  else .ok (.encryptedTagName (Bytes.ofText s))

namespace Operator

mutual

/-- Apply a function to the comparisons of an operator tree. -/
def transform (f : Operator → IndyResult Operator) : Operator → IndyResult Operator
  | .and operators => .and <$> transformListOperators f operators
  | .or operators => .or <$> transformListOperators f operators
  | .not operator => .not <$> transform f operator
  | .compare c name value => f (.compare c name value)
  | .in name values => f (.in name values)

def transformListOperators (f : Operator → IndyResult Operator) :
    List Operator → IndyResult (List Operator)
  | [] => pure []
  | o :: operators => do
    let o ← transform f o
    let operators ← transformListOperators f operators
    pure (o :: operators)

end

def optimise : Operator → Operator
  | .not (.not operator) => operator
  | .and [operator] => operator
  | .or [operator] => operator
  | .in name [value] => .compare .eq name value
  | operator => operator

end Operator

/-- The comparisons other than equality, under their names in a query. -/
def comparisonOf : String → Option Comparison
  | "$neq" => some .neq
  | "$gt" => some .gt
  | "$gte" => some .gte
  | "$lt" => some .lt
  | "$lte" => some .lte
  | "$like" => some .like
  | _ => none

def stringValues : List Json → Option (List String)
  | [] => some []
  | .str s :: values => (stringValues values).map (s :: ·)
  | _ :: _ => none

/-- Only inequality is defined for tags whose values are encrypted. -/
def parseComparison (c : Comparison) (operatorName key : String) (value : Json) :
    IndyResult Operator :=
  match value with
  | .str s => do
    let name ← TagName.ofText key
    match c, name with
    | .neq, _ => pure (.compare c name (.unencrypted s))
    | _, .plainTagName _ => pure (.compare c name (.unencrypted s))
    | _, .encryptedTagName _ => .err (errMsg .walletQueryError
        (operatorName ++ " must be used only for nonencrypted tag"))
  | _ => .err (errMsg .walletQueryError (operatorName ++ " must be used with string"))

def parseSingleOperator (operatorName key : String) (value : Json) : IndyResult Operator :=
  match comparisonOf operatorName with
  | some c => parseComparison c operatorName key value
  | none =>
    if operatorName = "$in" then
      match value with
      | .arr values => do
        let targets ← Outcome.ofOption
          (errMsg .walletQueryError "$in must be used with array of strings") (stringValues values)
        let name ← TagName.ofText key
        pure (.in name (targets.map .unencrypted))
      | _ => .err (errMsg .walletQueryError "$in must be used with array of strings")
    else .err (errMsg .walletQueryError "Unknown operator: _" [operatorName])

/-- The value of a tag that is an object: one comparison. -/
def parseTagObject (key : String) : List (String × Json) → IndyResult Operator
  | [(operatorName, value)] => parseSingleOperator operatorName key value
  | _ => .err (errMsg .walletQueryError "_ value must be JSON object of length 1" [key])

def topOperator (operators : List Operator) : Operator := (Operator.and operators).optimise

mutual

/-- The operators of the members of an object, in the order of the object. -/
def parseMembers : List (String × Json) → IndyResult (List Operator)
  | [] => pure []
  | (key, value) :: members => do
    let o ← parseOperator key value
    let operators ← parseMembers members
    pure (o :: operators)

def parseOperator (key : String) : Json → IndyResult Operator
  | .arr values =>
    if key = "$and" then .and <$> parseObjects "$and" values
    else if key = "$or" then .or <$> parseObjects "$or" values
    else if key = "$not" then .err (errMsg .walletQueryError "$not must be JSON object")
    else .err (errMsg .walletQueryError "Unsupported value for key: _" [key])
  | .obj members =>
    if key = "$and" ∨ key = "$or" then
      .err (errMsg .walletQueryError (key ++ " must be array of JSON objects"))
    else if key = "$not" then (fun operators => .not (topOperator operators)) <$>
      parseMembers members
    else parseTagObject key members
  | value =>
    if key = "$and" ∨ key = "$or" then
      .err (errMsg .walletQueryError (key ++ " must be array of JSON objects"))
    else if key = "$not" then .err (errMsg .walletQueryError "$not must be JSON object")
    else
      match value with
      | .str s => (fun name => .compare .eq name (.unencrypted s)) <$> TagName.ofText key
      | _ => .err (errMsg .walletQueryError "Unsupported value for key: _" [key])

def parseObjects (operatorName : String) : List Json → IndyResult (List Operator)
  | [] => pure []
  | .obj members :: values => do
    let operators ← parseMembers members
    let rest ← parseObjects operatorName values
    pure (topOperator operators :: rest)
  | _ :: _ => .err (errMsg .walletQueryError (operatorName ++ " must be array of JSON objects"))

end

def parse (map : List (String × Json)) : IndyResult Operator := do
  let operators ← parseMembers map
  pure (topOperator operators)

/-- A query text, read by the JSON library's parser. -/
def parseFromJson (fromStr : String → Option Json) (json : String) : IndyResult Operator := do
  let query ← Outcome.ofOption (errMsg .walletQueryError "Query is malformed json") (fromStr json)
  match query with
  | .obj map => parse map
  | _ => .err (errMsg .walletQueryError "Query must be JSON object")

variable (like : String → String → Bool)

/-- How a tag's value compares with a target; texts are ordered by their code points. -/
def Comparison.holds : Comparison → String → String → Bool
  | .eq, a, b => a = b
  | .neq, a, b => a ≠ b
  | .gt, a, b => b < a
  | .gte, a, b => !(decide (a < b))
  | .lt, a, b => a < b
  | .lte, a, b => !(decide (b < a))
  | .like, a, b => like a b

section Meaning

variable (tags : String → Option String)

/-- A comparison asks for the tag to be there. -/
def holdsSingleOperator (operatorName key : String) (value : Json) : Bool :=
  match tags key with
  | none => false
  | some tag =>
    match value with
    | .str s => (comparisonOf operatorName).any (fun c => c.holds like tag s)
    | .arr values => operatorName = "$in" && values.any (fun v => v = .str tag)
    | _ => false

def holdsTagObject (key : String) : List (String × Json) → Bool
  | [(operatorName, value)] => holdsSingleOperator like tags operatorName key value
  | _ => false

mutual

/-- The meaning of an object of a query: all of its members hold. -/
def holdsMembers : List (String × Json) → Bool
  | [] => true
  | (key, value) :: members => holdsMember key value && holdsMembers members

def holdsMember (key : String) : Json → Bool
  | .arr values => if key = "$and" then holdsAll values else holdsAny values
  | .obj members =>
    if key = "$not" then !holdsMembers members else holdsTagObject like tags key members
  | .str s => tags key = some s
  | _ => false

def holdsAll : List Json → Bool
  | [] => true
  | .obj members :: values => holdsMembers members && holdsAll values
  | _ :: _ => false

def holdsAny : List Json → Bool
  | [] => false
  | .obj members :: values => holdsMembers members || holdsAny values
  | _ :: _ => false

end

/-- The meaning of a query text. -/
def holdsQuery (query : Json) : Bool :=
  match query with
  | .obj map => holdsMembers like tags map
  | _ => false

/-- The name of the tag an operator refers to. -/
def TagName.text : TagName → Option String
  | .encryptedTagName name => Bytes.toText name
  | .plainTagName name => (Bytes.toText name).map ("~" ++ ·)

def TagName.lookup (name : TagName) : Option String := name.text.bind tags

mutual

def Operator.holds : Operator → Bool
  | .and operators => Operator.holdsAll operators
  | .or operators => Operator.holdsAny operators
  | .not operator => !operator.holds
  | .compare c name (.unencrypted s) => (name.lookup tags).any (fun tag => c.holds like tag s)
  | .compare _ _ (.encrypted _) => false
  | .in name values => (name.lookup tags).any (fun tag => .unencrypted tag ∈ values)

def Operator.holdsAll : List Operator → Bool
  | [] => true
  | o :: operators => o.holds && Operator.holdsAll operators

def Operator.holdsAny : List Operator → Bool
  | [] => false
  | o :: operators => o.holds || Operator.holdsAny operators

end

@[simp] theorem Operator.holdsAll_eq_all (operators : List Operator) :
    Operator.holdsAll like tags operators = operators.all (Operator.holds like tags) := by
  induction operators with
  | nil => rfl
  | cons o operators ih => rw [holdsAll, ih, List.all_cons]

@[simp] theorem Operator.holdsAny_eq_any (operators : List Operator) :
    Operator.holdsAny like tags operators = operators.any (Operator.holds like tags) := by
  induction operators with
  | nil => rfl
  | cons o operators ih => rw [holdsAny, ih, List.any_cons]

theorem Operator.optimise_holds (o : Operator) :
    o.optimise.holds like tags = o.holds like tags := by
  unfold Operator.optimise
  split
  · simp [Operator.holds]
  · simp [Operator.holds, Operator.holdsAll]
  · simp [Operator.holds, Operator.holdsAny]
  · next name value =>
    cases value with
    | unencrypted s => simp [Operator.holds, Comparison.holds]
    | encrypted b => simp [Operator.holds]
  · rfl

theorem topOperator_holds (operators : List Operator) :
    (topOperator operators).holds like tags = Operator.holdsAll like tags operators :=
  (Operator.optimise_holds like tags _).trans (by rw [Operator.holds])

theorem TagName.text_of_ofText {s : String} {name : TagName} (h : TagName.ofText s = .ok name) :
    name.text = some s := by
  rw [TagName.ofText] at h
  split_ifs at h with he hp
  · cases h
    obtain ⟨t, rfl, ht⟩ := exists_of_isPlain hp
    rw [TagName.text, ht, Bytes.toText_ofText, map_some]
  · cases h
    rw [TagName.text, Bytes.toText_ofText]

theorem TagName.isPlain_of_ofText {s : String} {name : Bytes}
    (h : TagName.ofText s = .ok (.plainTagName name)) : isPlain s := by
  rw [TagName.ofText] at h
  split_ifs at h with he hp
  · exact hp
  · cases h

theorem TagName.lookup_of_ofText {s : String} {name : TagName} (h : TagName.ofText s = .ok name) :
    name.lookup tags = tags s := by
  rw [TagName.lookup, TagName.text_of_ofText h, bind_some]

variable {key : String} {o : Operator}

theorem parseComparison_holds {c : Comparison} {operatorName : String} {value : Json}
    (hc : comparisonOf operatorName = some c)
    (h : parseComparison c operatorName key value = .ok o) :
    o.holds like tags = holdsSingleOperator like tags operatorName key value := by
  unfold parseComparison at h
  split at h
  · next s =>
    obtain ⟨name, hname, h⟩ := bind_eq_ok_iff.mp h
    have ho : o = .compare c name (.unencrypted s) := by
      split at h
      · cases h; rfl
      · cases h; rfl
      · cases h
    rw [ho, Operator.holds, TagName.lookup_of_ofText tags hname, holdsSingleOperator]
    cases tags key with
    | none => rfl
    | some tag => simp only [any_some, hc]
  · cases h

theorem mem_stringValues {values : List Json} {l : List String}
    (h : stringValues values = some l) (tag : String) :
    decide (TargetValue.unencrypted tag ∈ l.map TargetValue.unencrypted) =
      values.any (fun v => v = .str tag) := by
  induction values generalizing l with
  | nil =>
    cases h
    rfl
  | cons v values ih =>
    cases v with
    | str s =>
      obtain ⟨l', hl', rfl⟩ := map_eq_some_iff.mp h
      rw [List.any_cons, ← ih hl']
      simp [eq_comm]
    | _ => cases h

theorem parseSingleOperator_holds {operatorName : String} {value : Json}
    (h : parseSingleOperator operatorName key value = .ok o) :
    o.holds like tags = holdsSingleOperator like tags operatorName key value := by
  unfold parseSingleOperator at h
  split at h
  · next c hc => exact parseComparison_holds like tags hc h
  · split_ifs at h with hin
    split at h
    · next values =>
      obtain ⟨targets, ht, h⟩ := bind_eq_ok_iff.mp h
      obtain ⟨name, hname, h⟩ := bind_eq_ok_iff.mp h
      cases h
      rw [Operator.holds, TagName.lookup_of_ofText tags hname, holdsSingleOperator]
      cases tags key with
      | none => rfl
      | some tag =>
        simp only [any_some, hin, decide_true, Bool.true_and]
        exact mem_stringValues (ofOption_eq_ok.mp ht) tag
    · cases h

theorem parseTagObject_holds {members : List (String × Json)}
    (h : parseTagObject key members = .ok o) :
    o.holds like tags = holdsTagObject like tags key members := by
  unfold parseTagObject at h
  split at h
  · exact parseSingleOperator_holds like tags h
  · cases h

mutual

theorem parseMembers_holds : ∀ (members : List (String × Json)) (operators : List Operator),
    parseMembers members = .ok operators →
      Operator.holdsAll like tags operators = holdsMembers like tags members
  | [], operators, h => by
    cases h
    rfl
  | (key, value) :: members, operators, h => by
    rw [parseMembers] at h
    obtain ⟨o, ho, h⟩ := bind_eq_ok_iff.mp h
    obtain ⟨rest, hrest, h⟩ := bind_eq_ok_iff.mp h
    cases h
    rw [Operator.holdsAll, holdsMembers, parseOperator_holds key value o ho,
      parseMembers_holds members rest hrest]

theorem parseOperator_holds (key : String) : ∀ (value : Json) (o : Operator),
    parseOperator key value = .ok o → o.holds like tags = holdsMember like tags key value
  | .arr values, o, h => by
    rw [parseOperator] at h
    split_ifs at h with hand hor
    · obtain ⟨operators, hops, rfl⟩ := map_eq_ok_iff.mp h
      rw [Operator.holds, holdsMember, if_pos hand]
      exact parseObjects_holdsAll "$and" values operators hops
    · obtain ⟨operators, hops, rfl⟩ := map_eq_ok_iff.mp h
      rw [Operator.holds, holdsMember, if_neg hand]
      exact parseObjects_holdsAny "$or" values operators hops
  | .obj members, o, h => by
    rw [parseOperator] at h
    split_ifs at h with handor hnot
    · obtain ⟨operators, hops, rfl⟩ := map_eq_ok_iff.mp h
      rw [Operator.holds, holdsMember, if_pos hnot, topOperator_holds,
        parseMembers_holds members operators hops]
    · rw [holdsMember, if_neg hnot]
      exact parseTagObject_holds like tags h
  | .str s, o, h => by
    rw [parseOperator] at h
    split_ifs at h with handor hnot
    · obtain ⟨name, hname, rfl⟩ := map_eq_ok_iff.mp h
      rw [Operator.holds, TagName.lookup_of_ofText tags hname, holdsMember]
      cases tags key <;> simp [Comparison.holds]
  | .null, o, h => by
    simp only [parseOperator] at h
    split_ifs at h
  | .bool b, o, h => by
    simp only [parseOperator] at h
    split_ifs at h
  | .int i, o, h => by
    simp only [parseOperator] at h
    split_ifs at h
  | .float t, o, h => by
    simp only [parseOperator] at h
    split_ifs at h

theorem parseObjects_holdsAll (operatorName : String) : ∀ (values : List Json)
    (operators : List Operator), parseObjects operatorName values = .ok operators →
      Operator.holdsAll like tags operators = holdsAll like tags values
  | [], operators, h => by
    cases h
    rfl
  | .obj members :: values, operators, h => by
    rw [parseObjects] at h
    obtain ⟨ops, hops, h⟩ := bind_eq_ok_iff.mp h
    obtain ⟨rest, hrest, h⟩ := bind_eq_ok_iff.mp h
    cases h
    rw [Operator.holdsAll, holdsAll, topOperator_holds, parseMembers_holds members ops hops,
      parseObjects_holdsAll operatorName values rest hrest]
  | .null :: _, _, h | .bool _ :: _, _, h | .int _ :: _, _, h | .float _ :: _, _, h
  | .str _ :: _, _, h | .arr _ :: _, _, h => by cases h

theorem parseObjects_holdsAny (operatorName : String) : ∀ (values : List Json)
    (operators : List Operator), parseObjects operatorName values = .ok operators →
      Operator.holdsAny like tags operators = holdsAny like tags values
  | [], operators, h => by
    cases h
    rfl
  | .obj members :: values, operators, h => by
    rw [parseObjects] at h
    obtain ⟨ops, hops, h⟩ := bind_eq_ok_iff.mp h
    obtain ⟨rest, hrest, h⟩ := bind_eq_ok_iff.mp h
    cases h
    rw [Operator.holdsAny, holdsAny, topOperator_holds, parseMembers_holds members ops hops,
      parseObjects_holdsAny operatorName values rest hrest]
  | .null :: _, _, h | .bool _ :: _, _, h | .int _ :: _, _, h | .float _ :: _, _, h
  | .str _ :: _, _, h | .arr _ :: _, _, h => by cases h

end

theorem parse_holds {map : List (String × Json)} (h : parse map = .ok o) :
    o.holds like tags = holdsMembers like tags map := by
  obtain ⟨operators, hops, h⟩ := bind_eq_ok_iff.mp h
  cases h
  rw [topOperator_holds, parseMembers_holds like tags map operators hops]

end Meaning

/-- Operators as they come out of the parser: names are those of tags, no value is encrypted yet,
and order and pattern comparisons are made on plaintext tags only. -/
inductive Operator.Parsed : Operator → Prop
  | and {operators : List Operator} (h : ∀ o ∈ operators, Parsed o) : Parsed (.and operators)
  | or {operators : List Operator} (h : ∀ o ∈ operators, Parsed o) : Parsed (.or operators)
  | not {operator : Operator} (h : Parsed operator) : Parsed (.not operator)
  | compare {key : String} {name : TagName} (h : TagName.ofText key = .ok name) (c : Comparison)
    (hc : c = .eq ∨ c = .neq ∨ isPlain key) (s : String) :
    Parsed (.compare c name (.unencrypted s))
  | in {key : String} {name : TagName} (h : TagName.ofText key = .ok name)
    (values : List String) : Parsed (.in name (values.map .unencrypted))

theorem parsed_topOperator {operators : List Operator} (h : ∀ o ∈ operators, o.Parsed) :
    (topOperator operators).Parsed := by
  match operators, h with
  | [o], h => exact h o List.mem_cons_self
  | [], h => exact .and h
  | _ :: _ :: _, h => exact .and h

theorem parsed_parseSingleOperator {operatorName key : String} {value : Json} {o : Operator}
    (h : parseSingleOperator operatorName key value = .ok o) : o.Parsed := by
  unfold parseSingleOperator at h
  split at h
  · next c hc =>
    unfold parseComparison at h
    split at h
    · obtain ⟨name, hname, h⟩ := bind_eq_ok_iff.mp h
      split at h
      · cases h
        exact .compare hname _ (.inr (.inl rfl)) _
      · cases h
        exact .compare hname _ (.inr (.inr (TagName.isPlain_of_ofText hname))) _
      · cases h
    · cases h
  · split_ifs at h
    split at h
    · obtain ⟨targets, ht, h⟩ := bind_eq_ok_iff.mp h
      obtain ⟨name, hname, h⟩ := bind_eq_ok_iff.mp h
      cases h
      exact .in hname targets
    · cases h

mutual

theorem parsed_parseMembers : ∀ (members : List (String × Json)) (operators : List Operator),
    parseMembers members = .ok operators → ∀ o ∈ operators, o.Parsed
  | [], operators, h, o, ho => by
    cases h
    cases ho
  | (key, value) :: members, operators, h, o, ho => by
    rw [parseMembers] at h
    obtain ⟨o₁, ho₁, h⟩ := bind_eq_ok_iff.mp h
    obtain ⟨rest, hrest, h⟩ := bind_eq_ok_iff.mp h
    cases h
    rcases List.mem_cons.mp ho with rfl | ho
    · exact parsed_parseOperator key value _ ho₁
    · exact parsed_parseMembers members rest hrest o ho

theorem parsed_parseOperator (key : String) : ∀ (value : Json) (o : Operator),
    parseOperator key value = .ok o → o.Parsed
  | .arr values, o, h => by
    rw [parseOperator] at h
    split_ifs at h
    · obtain ⟨operators, hops, rfl⟩ := map_eq_ok_iff.mp h
      exact .and (parsed_parseObjects "$and" values operators hops)
    · obtain ⟨operators, hops, rfl⟩ := map_eq_ok_iff.mp h
      exact .or (parsed_parseObjects "$or" values operators hops)
  | .obj members, o, h => by
    rw [parseOperator] at h
    split_ifs at h
    · obtain ⟨operators, hops, rfl⟩ := map_eq_ok_iff.mp h
      exact .not (parsed_topOperator (parsed_parseMembers members operators hops))
    · unfold parseTagObject at h
      split at h
      · exact parsed_parseSingleOperator h
      · cases h
  | .str s, o, h => by
    rw [parseOperator] at h
    split_ifs at h
    obtain ⟨name, hname, rfl⟩ := map_eq_ok_iff.mp h
    exact .compare hname .eq (.inl rfl) s
  | .null, o, h => by
    simp only [parseOperator] at h
    split_ifs at h
  | .bool b, o, h => by
    simp only [parseOperator] at h
    split_ifs at h
  | .int i, o, h => by
    simp only [parseOperator] at h
    split_ifs at h
  | .float t, o, h => by
    simp only [parseOperator] at h
    split_ifs at h

theorem parsed_parseObjects (operatorName : String) : ∀ (values : List Json)
    (operators : List Operator), parseObjects operatorName values = .ok operators →
      ∀ o ∈ operators, o.Parsed
  | [], operators, h, o, ho => by
    cases h
    cases ho
  | .obj members :: values, operators, h, o, ho => by
    rw [parseObjects] at h
    obtain ⟨ops, hops, h⟩ := bind_eq_ok_iff.mp h
    obtain ⟨rest, hrest, h⟩ := bind_eq_ok_iff.mp h
    cases h
    rcases List.mem_cons.mp ho with rfl | ho
    · exact parsed_topOperator (parsed_parseMembers members ops hops)
    · exact parsed_parseObjects operatorName values rest hrest o ho
  | .null :: _, _, h, _, _ | .bool _ :: _, _, h, _, _ | .int _ :: _, _, h, _, _
  | .float _ :: _, _, h, _, _ | .str _ :: _, _, h, _, _ | .arr _ :: _, _, h, _, _ => by cases h

end

theorem parsed_parse {map : List (String × Json)} {o : Operator} (h : parse map = .ok o) :
    o.Parsed := by
  obtain ⟨operators, hops, h⟩ := bind_eq_ok_iff.mp h
  cases h
  exact parsed_topOperator (parsed_parseMembers map operators hops)

end IndySdk.Wallet.Language
