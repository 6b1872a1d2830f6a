import IndySdk.PluggedQuery
import IndySdk.WalletRuns

/-!
# Reading back the queries of a plugged storage

The text of an operator is the text of a JSON value as long as no plain value has a character to be
escaped. The plugin reads that value as the same operator, but for empty disjunctions: they are
printed like empty conjunctions.
-/

namespace IndySdk.Wallet.Language

open Outcome List

/-- The name of a tag as a member of a printed query. -/
def TagName.key : TagName → String
  | .encryptedTagName name => Base64.encodeStandard name
  | .plainTagName name => "~" ++ Base64.encodeStandard name

/-- A value as it stands between the quotation marks. -/
def TargetValue.text : TargetValue → String
  | .unencrypted s => s
  | .encrypted b => Base64.encodeStandard b

def TargetValue.plainValues : TargetValue → List String
  | .unencrypted s => [s]
  | .encrypted _ => []

def Comparison.toJson (value : Json) : Comparison → Json
  | .eq => value
  | .neq => .obj [("$neq", value)]
  | .gt => .obj [("$gt", value)]
  | .gte => .obj [("$gte", value)]
  | .lt => .obj [("$lt", value)]
  | .lte => .obj [("$lte", value)]
  | .like => .obj [("$like", value)]

mutual

/-- The members of the object that an operator is printed as. -/
def Operator.toMembers : Operator → List (String × Json)
  | .compare c name value => [(name.key, c.toJson (.str value.text))]
  | .in name values =>
    [(name.key, .obj [("$in", .arr (values.map (fun value => .str value.text)))])]
  | .and operators =>
    if operators = [] then [] else [("$and", .arr (Operator.toObjects operators))]
  | .or operators =>
    if operators = [] then [] else [("$or", .arr (Operator.toObjects operators))]
  | .not operator => [("$not", .obj operator.toMembers)]

def Operator.toObjects : List Operator → List Json
  | [] => []
  | o :: operators => .obj o.toMembers :: Operator.toObjects operators

end

mutual

/-- The values of an operator that are sent unencrypted. -/
def Operator.plainValues : Operator → List String
  | .compare _ _ value => value.plainValues
  | .in _ values => values.flatMap TargetValue.plainValues
  | .and operators => Operator.plainValuesOf operators
  | .or operators => Operator.plainValuesOf operators
  | .not operator => operator.plainValues

def Operator.plainValuesOf : List Operator → List String
  | [] => []
  | o :: operators => o.plainValues ++ Operator.plainValuesOf operators

end

mutual

/-- The number of arrays and objects around the innermost value of a printed operator. -/
def Operator.nesting : Operator → ℕ
  | .compare c _ _ => if c = .eq then 1 else 2
  | .in _ _ => 3
  | .and operators => if operators = [] then 1 else Operator.nestingOf operators + 2
  | .or operators => if operators = [] then 1 else Operator.nestingOf operators + 2
  | .not operator => operator.nesting + 1

def Operator.nestingOf : List Operator → ℕ
  | [] => 0
  | o :: operators => max o.nesting (Operator.nestingOf operators)

end

mutual

/-- The operator with its empty disjunctions replaced by empty conjunctions. -/
def Operator.emptied : Operator → Operator
  | .compare c name value => .compare c name value
  | .in name values => .in name values
  | .and operators => .and (Operator.emptiedList operators)
  | .or operators => if operators = [] then .and [] else .or (Operator.emptiedList operators)
  | .not operator => .not operator.emptied

def Operator.emptiedList : List Operator → List Operator
  | [] => []
  | o :: operators => o.emptied :: Operator.emptiedList operators

end

open Json (Unescaped quote quote_of_unescaped)

theorem encodeStandard_unescaped (b : Bytes) :
    ∀ c ∈ (Base64.encodeStandard b).toList, Unescaped c := by
  have hall : (Base64.symbolChars.map Base64.toStandard).all (fun c => Unescaped c) = true := by
    rw [Base64.symbolChars, Base64.alphabet_eq]
    rfl
  intro c hc
  exact of_decide_eq_true (all_eq_true.mp hall c (Base64.encodeStandard_mem b c hc))

theorem key_unescaped (name : TagName) : ∀ c ∈ name.key.toList, Unescaped c := by
  cases name with
  | encryptedTagName name => exact encodeStandard_unescaped name
  | plainTagName name =>
    rw [TagName.key, String.toList_append]
    intro c hc
    rcases mem_append.mp hc with hc | hc
    · rw [mem_singleton.mp hc]
      decide
    · exact encodeStandard_unescaped name c hc

theorem quote_key (name : TagName) : quote name.key = name.toString := by
  rw [quote_of_unescaped (key_unescaped name)]
  cases name with
  | encryptedTagName name => rfl
  | plainTagName name =>
    rw [TagName.key, TagName.toString, ← String.append_assoc]
    rfl

variable {value : TargetValue}

theorem quote_text (h : ∀ s ∈ value.plainValues, ∀ c ∈ s.toList, Unescaped c) :
    quote value.text = value.toString := by
  cases value with
  | unencrypted s => exact quote_of_unescaped (h s (mem_singleton_self s))
  | encrypted b => exact quote_of_unescaped (encodeStandard_unescaped b)

theorem text_single (key : String) (value : Json) :
    Json.text (.obj [(key, value)]) = "\x7b" ++ (quote key ++ ":" ++ value.text) ++ "\x7d" := by
  rw [Json.text, Json.textMembers, Json.textMembers, String.intercalate_singleton]

theorem format_eq (c : Comparison) (name : TagName)
    (h : ∀ s ∈ value.plainValues, ∀ c ∈ s.toList, Unescaped c) :
    c.format name.toString value.toString =
      Json.text (.obj [(name.key, c.toJson (.str value.text))]) := by
  rw [text_single, quote_key]
  cases c with
  | eq =>
    rw [Comparison.toJson, Json.text, quote_text h, Comparison.format]
    simp only [String.append_assoc]
  | _ =>
    rw [Comparison.toJson, text_single, Json.text, quote_text h, Comparison.format]
    simp only [String.append_assoc]
    rfl

theorem textElements_str {values : List TargetValue}
    (h : ∀ s ∈ values.flatMap TargetValue.plainValues, ∀ c ∈ s.toList, Unescaped c) :
    Json.textElements (values.map (fun value => .str value.text)) =
      values.map TargetValue.toString := by
  induction values with
  | nil => rfl
  | cons value values ih =>
    rw [flatMap_cons] at h
    rw [map_cons, Json.textElements, map_cons,
      ih (fun s hs => h s (mem_append_right _ hs)), Json.text,
      quote_text (fun s hs => h s (mem_append_left _ hs))]

theorem text_list (key : String) (elements : List Json) :
    Json.text (.obj [(key, .arr elements)]) =
      "\x7b" ++ (quote key ++ ":" ++ ("[" ++ ",".intercalate (Json.textElements elements) ++ "]"))
        ++ "\x7d" := by
  rw [text_single, Json.text]

mutual

theorem toString_eq : ∀ (o : Operator), (∀ s ∈ o.plainValues, ∀ c ∈ s.toList, Unescaped c) →
    o.toString = Json.text (.obj o.toMembers)
  | .compare c name value, h => by
    rw [Operator.plainValues] at h
    rw [Operator.toString, Operator.toMembers, format_eq c name h]
  | .in name values, h => by
    rw [Operator.plainValues] at h
    rw [Operator.toString, Operator.toMembers, text_single, quote_key, text_list,
      textElements_str h]
    simp only [String.append_assoc]
    rfl
  | .and [], _ => rfl
  | .and (o :: operators), h => by
    rw [Operator.plainValues] at h
    rw [Operator.toString, Operator.toMembers, if_pos (by simp), if_neg (by simp), text_list,
      toStrings_eq (o :: operators) h]
    simp only [String.append_assoc]
    rfl
  | .or [], _ => rfl
  | .or (o :: operators), h => by
    rw [Operator.plainValues] at h
    rw [Operator.toString, Operator.toMembers, if_pos (by simp), if_neg (by simp), text_list,
      toStrings_eq (o :: operators) h]
    simp only [String.append_assoc]
    rfl
  | .not o, h => by
    rw [Operator.plainValues] at h
    rw [Operator.toString, Operator.toMembers, text_single, toString_eq o h]
    simp only [String.append_assoc]
    rfl

theorem toStrings_eq : ∀ (operators : List Operator),
    (∀ s ∈ Operator.plainValuesOf operators, ∀ c ∈ s.toList, Unescaped c) →
      Operator.toStrings operators = Json.textElements (Operator.toObjects operators)
  | [], _ => rfl
  | o :: operators, h => by
    rw [Operator.plainValuesOf] at h
    rw [Operator.toStrings, Operator.toObjects, Json.textElements,
      toString_eq o (fun s hs => h s (mem_append_left _ hs)),
      toStrings_eq operators (fun s hs => h s (mem_append_right _ hs))]

end

theorem toValue_single (key : String) (value : Json) :
    Json.toValue (.obj [(key, value)]) = .obj [(key, value.toValue)] := rfl

theorem toValues_str (values : List TargetValue) :
    Json.toValues (values.map (fun value => .str value.text)) =
      values.map (fun value => .str value.text) := by
  induction values with
  | nil => rfl
  | cons value values ih =>
    rw [map_cons, Json.toValues, ih]
    rfl

theorem textualElements_str (values : List TargetValue) :
    Json.textualElements (values.map (fun value => .str value.text)) = true := by
  induction values with
  | nil => rfl
  | cons value values ih =>
    rw [map_cons, Json.textualElements, ih]
    rfl

theorem depthElements_str (values : List TargetValue) :
    Json.depthElements (values.map (fun value => .str value.text)) = 0 := by
  induction values with
  | nil => rfl
  | cons value values ih =>
    rw [map_cons, Json.depthElements, ih]
    rfl

theorem textual_single (key : String) {value : Json} (h : Json.textual value = true) :
    Json.textual (.obj [(key, value)]) = true := by
  rw [Json.textual, Json.textualMembers, Json.textualMembers, h]
  rfl

theorem depth_single (key : String) (value : Json) :
    Json.depth (.obj [(key, value)]) = Json.depth value + 1 := by
  rw [Json.depth, Json.depthMembers, Json.depthMembers, Nat.max_zero]

theorem Comparison.textual_toJson (c : Comparison) (s : String) :
    Json.textual (c.toJson (.str s)) = true := by
  cases c <;> rfl

theorem Comparison.toValue_toJson (c : Comparison) (s : String) :
    Json.toValue (c.toJson (.str s)) = c.toJson (.str s) := by
  cases c <;> rfl

theorem Comparison.depth_toJson (c : Comparison) (s : String) :
    Json.depth (c.toJson (.str s)) + 1 = if c = .eq then 1 else 2 := by
  cases c <;> rfl

mutual

theorem textual_toMembers : ∀ o : Operator, Json.textual (.obj o.toMembers) = true
  | .compare c name value => by
    rw [Operator.toMembers]
    exact textual_single _ (c.textual_toJson value.text)
  | .in name values => by
    rw [Operator.toMembers]
    refine textual_single _ (textual_single _ ?_)
    rw [Json.textual]
    exact textualElements_str values
  | .and [] => rfl
  | .and (o :: operators) => by
    rw [Operator.toMembers, if_neg (by simp)]
    refine textual_single _ ?_
    rw [Json.textual]
    exact textualElements_toObjects (o :: operators)
  | .or [] => rfl
  | .or (o :: operators) => by
    rw [Operator.toMembers, if_neg (by simp)]
    refine textual_single _ ?_
    rw [Json.textual]
    exact textualElements_toObjects (o :: operators)
  | .not o => by
    rw [Operator.toMembers]
    exact textual_single _ (textual_toMembers o)

theorem textualElements_toObjects : ∀ operators : List Operator,
    Json.textualElements (Operator.toObjects operators) = true
  | [] => rfl
  | o :: operators => by
    rw [Operator.toObjects, Json.textualElements, textual_toMembers o,
      textualElements_toObjects operators]
    rfl

end

mutual

theorem toValue_toMembers : ∀ o : Operator,
    Json.toValue (.obj o.toMembers) = .obj o.toMembers
  | .compare c name value => by
    rw [Operator.toMembers, toValue_single, c.toValue_toJson]
  | .in name values => by
    rw [Operator.toMembers, toValue_single, toValue_single, Json.toValue, toValues_str]
  | .and [] => rfl
  | .and (o :: operators) => by
    rw [Operator.toMembers, if_neg (by simp), toValue_single, Json.toValue,
      toValues_toObjects (o :: operators)]
  | .or [] => rfl
  | .or (o :: operators) => by
    rw [Operator.toMembers, if_neg (by simp), toValue_single, Json.toValue,
      toValues_toObjects (o :: operators)]
  | .not o => by
    rw [Operator.toMembers, toValue_single, toValue_toMembers o]

theorem toValues_toObjects : ∀ operators : List Operator,
    Json.toValues (Operator.toObjects operators) = Operator.toObjects operators
  | [] => rfl
  | o :: operators => by
    rw [Operator.toObjects, Json.toValues, toValue_toMembers o, toValues_toObjects operators]

end

mutual

theorem depth_toMembers : ∀ o : Operator, Json.depth (.obj o.toMembers) = o.nesting
  | .compare c name value => by
    rw [Operator.toMembers, depth_single, c.depth_toJson, Operator.nesting]
  | .in name values => by
    rw [Operator.toMembers, depth_single, depth_single, Json.depth, depthElements_str,
      Operator.nesting]
  | .and [] => rfl
  | .and (o :: operators) => by
    rw [Operator.toMembers, if_neg (by simp), depth_single, Json.depth,
      depthElements_toObjects (o :: operators), Operator.nesting, if_neg (by simp)]
  | .or [] => rfl
  | .or (o :: operators) => by
    rw [Operator.toMembers, if_neg (by simp), depth_single, Json.depth,
      depthElements_toObjects (o :: operators), Operator.nesting, if_neg (by simp)]
  | .not o => by
    rw [Operator.toMembers, depth_single, depth_toMembers o, Operator.nesting]

theorem depthElements_toObjects : ∀ operators : List Operator,
    Json.depthElements (Operator.toObjects operators) = Operator.nestingOf operators
  | [] => rfl
  | o :: operators => by
    rw [Operator.toObjects, Json.depthElements, depth_toMembers o,
      depthElements_toObjects operators, Operator.nestingOf]

end

theorem unwrap_encodeStandard (b : Bytes) :
    (Outcome.unwrap (Base64.decodeStandard (Base64.encodeStandard b)) :
      Outcome Postgres.WalletQueryError Bytes) = .ok b := by
  rw [Base64.decodeStandard_encodeStandard, unwrap_some]

theorem head_key_of_encrypted (name : Bytes) : isPlain (Base64.encodeStandard name) = false := by
  have hall : (Base64.symbolChars.map Base64.toStandard).all (fun c => c ≠ '~') = true := by
    rw [Base64.symbolChars, Base64.alphabet_eq]
    rfl
  rw [isPlain, decide_eq_false_iff_not]
  intro hhead
  have hmem := Base64.encodeStandard_mem name '~' (mem_of_mem_head? hhead)
  exact absurd rfl (of_decide_eq_true (all_eq_true.mp hall '~' hmem))

theorem buildTargetName_key (name : TagName) :
    Postgres.buildTargetName true name.key = .ok name := by
  cases name with
  | encryptedTagName name =>
    rw [Postgres.buildTargetName, TagName.key, head_key_of_encrypted, unwrap_encodeStandard]
    rfl
  | plainTagName name =>
    have hhead : isPlain ("~" ++ Base64.encodeStandard name) = true := by
      rw [isPlain, String.toList_append]
      rfl
    have hrest : String.ofList (("~" ++ Base64.encodeStandard name).toList.drop 1) =
        Base64.encodeStandard name := by
      rw [String.toList_append]
      exact String.ofList_toList
    rw [Postgres.buildTargetName, TagName.key, hhead, hrest, unwrap_encodeStandard]
    rfl

theorem buildTargetValue_plain (name : Bytes) (s : String) :
    Postgres.buildTargetValue true (.plainTagName name) s = .ok (.unencrypted s) := rfl

theorem buildTargetValue_encrypted (name b : Bytes) :
    Postgres.buildTargetValue true (.encryptedTagName name) (Base64.encodeStandard b) =
      .ok (.encrypted b) := by
  rw [Postgres.buildTargetValue, unwrap_encodeStandard, map_ok]

theorem buildTargetValues_str {name : TagName} {values : List TargetValue}
    (h : ∀ value ∈ values, Postgres.buildTargetValue true name value.text = .ok value) :
    Postgres.buildTargetValues true name (values.map (fun value => .str value.text)) =
      .ok values := by
  induction values with
  | nil => rfl
  | cons value values ih =>
    rw [map_cons, Postgres.buildTargetValues, h value mem_cons_self, ok_bind,
      ih (fun value hv => h value (mem_cons_of_mem _ hv)), ok_bind, Outcome.pure_eq_ok]

theorem key_ne (name : TagName) {operatorName : String}
    (h : operatorName.toList.head? = some '$') : name.key ≠ operatorName := by
  intro hkey
  have hhead : name.key.toList.head? = some '$' := by rw [hkey, h]
  cases name with
  | encryptedTagName name =>
    have hall : (Base64.symbolChars.map Base64.toStandard).all (fun c => c ≠ '$') = true := by
      rw [Base64.symbolChars, Base64.alphabet_eq]
      rfl
    have hmem := Base64.encodeStandard_mem name '$' (mem_of_mem_head? hhead)
    exact absurd rfl (of_decide_eq_true (all_eq_true.mp hall '$' hmem))
  | plainTagName name =>
    rw [TagName.key, String.toList_append] at hhead
    exact absurd (Option.some.inj hhead) (by decide)

theorem parse_single (key : String) (value : Json) :
    Postgres.parse true [(key, value)] = Postgres.parseOperator true key value := by
  rw [Postgres.parse, Postgres.parseMembers, Postgres.parseMembers]
  cases Postgres.parseOperator true key value <;> rfl

theorem parseOperator_tag (name : TagName) (members : List (String × Json)) :
    Postgres.parseOperator true name.key (.obj members) =
      Postgres.parseTagObject true name.key members := by
  rw [Postgres.parseOperator, if_neg (not_or.mpr ⟨key_ne name rfl, key_ne name rfl⟩),
    if_neg (key_ne name rfl)]

theorem parseOperator_value (name : TagName) (s : String) :
    Postgres.parseOperator true name.key (.str s) =
      .compare .eq name <$> Postgres.buildTargetValue true name s := by
  simp only [Postgres.parseOperator]
  rw [if_neg (not_or.mpr ⟨key_ne name rfl, key_ne name rfl⟩), if_neg (key_ne name rfl),
    buildTargetName_key, ok_bind]

theorem parse_compare (c : Comparison) {name : TagName}
    (hc : c = .eq ∨ c = .neq ∨ ∃ plain, name = .plainTagName plain)
    (h : Postgres.buildTargetValue true name value.text = .ok value) :
    Postgres.parse true [(name.key, c.toJson (.str value.text))] = .ok (.compare c name value) := by
  rw [parse_single]
  cases c with
  | eq => rw [Comparison.toJson, parseOperator_value, h, map_ok]
  | neq =>
    rw [Comparison.toJson, parseOperator_tag]
    change Postgres.parseComparison true .neq "$neq" name.key (.str value.text) = _
    rw [Postgres.parseComparison, buildTargetName_key, ok_bind, h, map_ok]
  | _ =>
    obtain ⟨plain, rfl⟩ := (hc.resolve_left (by decide)).resolve_left (by decide)
    rw [Comparison.toJson, parseOperator_tag]
    change Postgres.parseComparison true _ _ (TagName.plainTagName plain).key (.str value.text) = _
    rw [Postgres.parseComparison, buildTargetName_key, ok_bind, h, map_ok]

theorem parse_in {name : TagName} {values : List TargetValue}
    (h : ∀ value ∈ values, Postgres.buildTargetValue true name value.text = .ok value) :
    Postgres.parse true
      [(name.key, .obj [("$in", .arr (values.map (fun value => .str value.text)))])] =
        .ok (.in name values) := by
  rw [parse_single, parseOperator_tag, Postgres.parseTagObject, Postgres.parseSingleOperator]
  change (do
    let targetName ← Postgres.buildTargetName true name.key
    Operator.in targetName <$> Postgres.buildTargetValues true targetName _) = _
  rw [buildTargetName_key, ok_bind, buildTargetValues_str h, map_ok]

theorem parseObjects_toObjects {operatorName : String} {operators : List Operator}
    (h : ∀ o ∈ operators, Postgres.parse true o.toMembers = .ok o.emptied) :
    Postgres.parseObjects true operatorName (Operator.toObjects operators) =
      .ok (Operator.emptiedList operators) := by
  induction operators with
  | nil => rfl
  | cons o operators ih =>
    obtain ⟨suboperators, hs, ho⟩ := map_eq_ok_iff.mp (h o mem_cons_self)
    rw [Operator.toObjects, Postgres.parseObjects, hs, ok_bind,
      ih (fun o ho => h o (mem_cons_of_mem _ ho)), ok_bind, ho, Operator.emptiedList,
      Outcome.pure_eq_ok]

variable {o : Operator}

theorem parse_toMembers (h : o.Sealed) :
    Postgres.parse true o.toMembers = .ok o.emptied := by
  induction h with
  | @and operators h ih =>
    rw [Operator.toMembers, Operator.emptied]
    by_cases hempty : operators = []
    · rw [if_pos hempty, hempty]
      rfl
    · rw [if_neg hempty, parse_single, Postgres.parseOperator, if_pos rfl,
        parseObjects_toObjects ih, map_ok]
  | @or operators h ih =>
    rw [Operator.toMembers, Operator.emptied]
    by_cases hempty : operators = []
    · rw [if_pos hempty, if_pos hempty]
      rfl
    · rw [if_neg hempty, if_neg hempty, parse_single, Postgres.parseOperator,
        if_neg (by decide), if_pos rfl, parseObjects_toObjects ih, map_ok]
  | @not operator h ih =>
    obtain ⟨operators, hops, ho⟩ := map_eq_ok_iff.mp ih
    rw [Operator.toMembers, Operator.emptied, parse_single, Postgres.parseOperator,
      if_neg (by decide), if_pos rfl, hops, map_ok, ho]
  | plain c name s =>
    exact parse_compare c (.inr (.inr ⟨name, rfl⟩)) (buildTargetValue_plain name s)
  | eq name value =>
    exact parse_compare .eq (.inl rfl) (buildTargetValue_encrypted name value)
  | neq name value =>
    exact parse_compare .neq (.inr (.inl rfl)) (buildTargetValue_encrypted name value)
  | inPlain name values =>
    exact parse_in (forall_mem_map.mpr (fun s _ => buildTargetValue_plain name s))
  | inEncrypted name values =>
    exact parse_in (forall_mem_map.mpr (fun b _ => buildTargetValue_encrypted name b))

/-- A JSON reader that refuses what is nested more deeply than a limit. -/
def ReadsNested (fromStr : String → Option Json) (limit : ℕ) : Prop :=
  ∀ j, Json.textual j = true →
    fromStr j.text = if j.depth ≤ limit then some j.toValue else none

/-- Two operators ask for the same, whatever tags are stored. -/
def SameMeaning (a b : Operator) : Prop :=
  ∀ like tables itemId, a.matches like tables itemId = b.matches like tables itemId

/-- The operator is handed over as a JSON text that the plugin reads as one of its meaning. -/
def ReadBack (fromStr : String → Option Json) (o : Operator) : Prop :=
  ∃ text value read, PluggedStorage.searchQuery o = .ok text ∧ fromStr text = some value ∧
    Postgres.parseFromJsonEncrypted fromStr text = .ok read ∧ SameMeaning read o

theorem searchQuery_eq (h : ∀ s ∈ o.plainValues, ∀ c ∈ s.toList, Unescaped c) :
    PluggedStorage.searchQuery o = .ok (Json.text (.obj o.toMembers)) := by
  have hnull : '\x00' ∉ (Json.text (.obj o.toMembers)).toList := by
    rw [Json.toList_text]
    intro hmem
    exact absurd (Json.chars_ge _ (textual_toMembers o) _ hmem) (by decide)
  rw [PluggedStorage.searchQuery, toString_eq o h, PluggedStorage.cString, if_neg hnull]

theorem parseFromJsonEncrypted_text {fromStr : String → Option Json} {limit : ℕ}
    (hread : ReadsNested fromStr limit) (h : o.Sealed) (hdepth : o.nesting ≤ limit) :
    Postgres.parseFromJsonEncrypted fromStr (Json.text (.obj o.toMembers)) = .ok o.emptied := by
  have htext := hread _ (textual_toMembers o)
  rw [depth_toMembers, if_pos hdepth, toValue_toMembers] at htext
  rw [Postgres.parseFromJsonEncrypted, Postgres.parseFromJsonIternal, htext,
    ofOption_some, ok_bind]
  exact parse_toMembers h

theorem sealed_of_encryptedQuery {wc : WalletCrypto} {keys : Keys}
    {readQuery : String → Option Json} {query : String}
    (h : encryptedQuery wc keys readQuery query = .ok o) : o.Sealed := by
  obtain ⟨parsed, hparsed, h⟩ := bind_eq_ok_iff.mp h
  obtain ⟨value, -, hvalue⟩ := bind_eq_ok_iff.mp hparsed
  cases value with
  | obj map =>
    have hp := parsed_parse hvalue
    cases (encryptQuery_eq wc keys hp).symm.trans h
    exact sealed_encrypted wc keys hp
  | _ => cases hvalue

/-- Where no plain value has a character to be escaped, an accepted query is read back exactly
when it is nested within the limit of the reader and its empty disjunctions do not matter. -/
theorem query_readBack_iff {wc : WalletCrypto} {keys : Keys} {fromStr : String → Option Json}
    {limit : ℕ} (hread : ReadsNested fromStr limit) {readQuery : String → Option Json}
    {query : String} {o : Operator} (ho : encryptedQuery wc keys readQuery query = .ok o)
    (hplain : ∀ s ∈ o.plainValues, ∀ c ∈ s.toList, Unescaped c) :
    ReadBack fromStr o ↔ o.nesting ≤ limit ∧ SameMeaning o.emptied o := by
  have hsealed := sealed_of_encryptedQuery ho
  have htext := hread _ (textual_toMembers o)
  rw [depth_toMembers, toValue_toMembers] at htext
  constructor
  · rintro ⟨text, value, read, hsent, hvalue, hparsed, hsame⟩
    cases (searchQuery_eq hplain).symm.trans hsent
    rw [htext] at hvalue
    split_ifs at hvalue with hdepth
    cases (parseFromJsonEncrypted_text hread hsealed hdepth).symm.trans hparsed
    exact ⟨hdepth, hsame⟩
  · rintro ⟨hdepth, hsame⟩
    rw [if_pos hdepth] at htext
    exact ⟨_, _, _, searchQuery_eq hplain, htext,
      parseFromJsonEncrypted_text hread hsealed hdepth, hsame⟩

mutual

/-- Some disjunction of the operator is empty. -/
def Operator.hasEmptyOr : Operator → Bool
  | .compare _ _ _ => false
  | .in _ _ => false
  | .and operators => Operator.anyEmptyOr operators
  | .or operators => operators.isEmpty || Operator.anyEmptyOr operators
  | .not operator => operator.hasEmptyOr

def Operator.anyEmptyOr : List Operator → Bool
  | [] => false
  | o :: operators => o.hasEmptyOr || Operator.anyEmptyOr operators

end

mutual

theorem emptied_eq : ∀ o : Operator, o.hasEmptyOr = false → o.emptied = o
  | .compare c name value, _ => rfl
  | .in name values, _ => rfl
  | .and operators, h => by
    rw [Operator.hasEmptyOr] at h
    rw [Operator.emptied, emptiedList_eq operators h]
  | .or [], h => by cases h
  | .or (o :: operators), h => by
    rw [Operator.hasEmptyOr, Bool.or_eq_false_iff] at h
    rw [Operator.emptied, if_neg (by simp), emptiedList_eq (o :: operators) h.2]
  | .not o, h => by
    rw [Operator.hasEmptyOr] at h
    rw [Operator.emptied, emptied_eq o h]

theorem emptiedList_eq : ∀ operators : List Operator, Operator.anyEmptyOr operators = false →
    Operator.emptiedList operators = operators
  | [], _ => rfl
  | o :: operators, h => by
    rw [Operator.anyEmptyOr, Bool.or_eq_false_iff] at h
    rw [Operator.emptiedList, emptied_eq o h.1, emptiedList_eq operators h.2]

end

theorem sameMeaning_emptied (h : o.hasEmptyOr = false) :
    SameMeaning o.emptied o := by
  intro like tables itemId
  rw [emptied_eq o h]

theorem readNested_readsNested (limit : ℕ) : ReadsNested (Json.readNested limit) limit :=
  fun _ h => Json.readNested_text limit h

/-- A list of encrypted values, and a negated plain value. -/
def sentQuery : String :=
  "\x7b\"a\":\x7b\"$in\":[\"x\",\"y\"]\x7d,\"$not\":\x7b\"~b\":\"1\"\x7d\x7d"

def sentJson : Json :=
  .obj [("$not", .obj [("~b", .str "1")]), ("a", .obj [("$in", .arr [.str "x", .str "y"])])]

def sentName (name : String) : Bytes := encryptBareName plainCrypto zeroKeys (Bytes.ofText name)

def sentOperator : Operator :=
  .and [.not (.compare .eq (.plainTagName (sentName "b")) (.unencrypted "1")),
    .in (.encryptedTagName (sentName "a"))
      [.encrypted (sentName "x"), .encrypted (sentName "y")]]

theorem encryptedQuery_sentQuery :
    encryptedQuery plainCrypto zeroKeys (Json.readNested 127) sentQuery = .ok sentOperator := by
  have hread : Json.readNested 127 sentQuery = some sentJson := by decide +kernel
  rw [encryptedQuery, parseFromJson, hread]
  rfl

theorem query_readBack_sentQuery : ReadBack (Json.readNested 127) sentOperator := by
  refine (query_readBack_iff (readNested_readsNested 127) encryptedQuery_sentQuery ?_).mpr
    ⟨by decide, sameMeaning_emptied (by decide)⟩
  intro s hs c hc
  rw [mem_singleton.mp hs] at hc
  rw [mem_singleton.mp hc]
  decide

/-- A plain value with quotation marks. -/
def quotedQuery : String := "\x7b\"~note\":\"say \\\"hi\\\"\"\x7d"

def quotedOperator : Operator :=
  .compare .eq (.plainTagName (sentName "note")) (.unencrypted "say \"hi\"")

def emptyOrQuery : String := "\x7b\"$or\":[]\x7d"

/-- Quotation marks are printed as they are, and the text is no JSON. An empty disjunction is read
back as an empty conjunction, which holds of every record. -/
theorem quoted_not_readBack :
    (encryptedQuery plainCrypto zeroKeys (Json.readNested 127) quotedQuery = .ok quotedOperator ∧
      ¬ ReadBack (Json.readNested 127) quotedOperator) ∧
    (encryptedQuery plainCrypto zeroKeys (Json.readNested 127) emptyOrQuery = .ok (.or []) ∧
      ¬ ReadBack (Json.readNested 127) (.or [])) := by
  have hquoted : Json.readNested 127 quotedQuery =
      some (.obj [("~note", .str "say \"hi\"")]) := by decide +kernel
  have hempty : Json.readNested 127 emptyOrQuery = some (.obj [("$or", .arr [])]) := by
    decide +kernel
  refine ⟨⟨?_, ?_⟩, ?_, ?_⟩
  · rw [encryptedQuery, parseFromJson, hquoted]
    rfl
  · rintro ⟨text, value, read, hsent, hvalue, -, -⟩
    have hnone : Json.readNested 127 quotedOperator.toString = none := by decide +kernel
    have hsearch : PluggedStorage.searchQuery quotedOperator = .ok quotedOperator.toString := by
      decide +kernel
    cases hsearch.symm.trans hsent
    cases hnone.symm.trans hvalue
  · rw [encryptedQuery, parseFromJson, hempty]
    rfl
  · rintro ⟨text, value, read, hsent, hvalue, hparsed, hsame⟩
    have hsearch : PluggedStorage.searchQuery (.or []) = .ok "\x7b\x7d" := by decide +kernel
    cases hsearch.symm.trans hsent
    have hobj : Json.readNested 127 "\x7b\x7d" = some (.obj []) := by decide +kernel
    rw [Postgres.parseFromJsonEncrypted, Postgres.parseFromJsonIternal, hobj] at hparsed
    cases hparsed
    cases hsame (fun _ _ => true) ⟨.empty, .empty⟩ 0

end IndySdk.Wallet.Language
