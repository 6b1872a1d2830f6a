import IndySdk.WalletQuery
import IndySdk.WalletRefinement

/-!
# Encryption of wallet queries

The names in a query are encrypted like the names of stored tags, and the values next to encrypted
names like the values of stored tags. What an encrypted operator says about the stored tags of an
item is what the operator says about the tags they encrypt.
-/

namespace IndySdk.Wallet.Language

open Outcome List Operator

variable (wc : WalletCrypto) (keys : Keys)

def encryptBareName (name : Bytes) : Bytes :=
  encryptAsSearchable wc name keys.tagNameKey keys.tagsHmacKey

def encryptNameValue (name : TagName) (value : TargetValue) :
    IndyResult (TagName × TargetValue) :=
  match name, value with
  | .encryptedTagName name, .unencrypted s =>
    .ok (.encryptedTagName (encryptBareName wc keys name),
      .encrypted (encryptAsSearchable wc (Bytes.ofText s) keys.tagValueKey keys.tagsHmacKey))
  | .plainTagName name, .unencrypted s =>
    .ok (.plainTagName (encryptBareName wc keys name), .unencrypted s)
  | _, _ => .err (errMsg .walletQueryError
      "Reached invalid combination of tag name and value while encrypting query")

def encryptName (name : TagName) : TagName :=
  match name with
  | .encryptedTagName name => .encryptedTagName (encryptBareName wc keys name)
  | .plainTagName name => .plainTagName (encryptBareName wc keys name)

def encryptOperator : Operator → IndyResult Operator
  | .compare c name value => do
    let (name, value) ← encryptNameValue wc keys name value
    pure (.compare c name value)
  | .in name values => do
    let name := encryptName wc keys name
    let values ← values.mapM (fun value => Prod.snd <$> encryptNameValue wc keys name value)
    pure (.in name values)
  | op => pure op

def encryptQuery (operator : Operator) : IndyResult Operator :=
  operator.transform (encryptOperator wc keys)

def encryptValue (name : TagName) (s : String) : TargetValue :=
  match name with
  | .encryptedTagName _ =>
    .encrypted (encryptAsSearchable wc (Bytes.ofText s) keys.tagValueKey keys.tagsHmacKey)
  | .plainTagName _ => .unencrypted s

def encryptTarget (name : TagName) : TargetValue → TargetValue
  | .unencrypted s => encryptValue wc keys name s
  | .encrypted b => .encrypted b

mutual

/-- The encrypted form of a parsed operator. -/
def Operator.encrypted : Operator → Operator
  | .and operators => .and (Operator.encryptedList operators)
  | .or operators => .or (Operator.encryptedList operators)
  | .not operator => .not operator.encrypted
  | .compare c name value =>
    .compare c (encryptName wc keys name) (encryptTarget wc keys name value)
  | .in name values => .in (encryptName wc keys name) (values.map (encryptTarget wc keys name))

def Operator.encryptedList : List Operator → List Operator
  | [] => []
  | o :: operators => o.encrypted :: Operator.encryptedList operators

end

@[simp] theorem Operator.encryptedList_eq_map (operators : List Operator) :
    Operator.encryptedList wc keys operators = operators.map (Operator.encrypted wc keys) := by
  induction operators with
  | nil => rfl
  | cons o operators ih => rw [encryptedList, ih, map_cons]

theorem encryptNameValue_eq (name : TagName) (s : String) :
    encryptNameValue wc keys name (.unencrypted s) =
      .ok (encryptName wc keys name, encryptValue wc keys name s) := by
  cases name <;> rfl

theorem encryptValue_encryptName (name : TagName) (s : String) :
    encryptValue wc keys (encryptName wc keys name) s = encryptValue wc keys name s := by
  cases name <;> rfl

theorem transformListOperators_eq_ok {f : Operator → IndyResult Operator} {g : Operator → Operator}
    {operators : List Operator} (h : ∀ o ∈ operators, o.transform f = .ok (g o)) :
    transformListOperators f operators = .ok (operators.map g) := by
  induction operators with
  | nil => rfl
  | cons o operators ih =>
    simp only [transformListOperators, h o mem_cons_self, ok_bind,
      ih (fun o ho => h o (mem_cons_of_mem _ ho)), pure_eq_ok, map_cons]

variable {o : Operator}

theorem encryptQuery_eq (h : o.Parsed) :
    encryptQuery wc keys o = .ok (o.encrypted wc keys) := by
  induction h with
  | and h ih =>
    rw [encryptQuery, transform, transformListOperators_eq_ok ih, Operator.encrypted,
      Operator.encryptedList_eq_map, map_ok]
  | or h ih =>
    rw [encryptQuery, transform, transformListOperators_eq_ok ih, Operator.encrypted,
      Operator.encryptedList_eq_map, map_ok]
  | not h ih =>
    rw [encryptQuery] at ih
    rw [encryptQuery, transform, ih, Operator.encrypted, map_ok]
  | compare h c hc s =>
    simp only [encryptQuery, transform, encryptOperator, encryptNameValue_eq,
      ok_bind, pure_eq_ok, Operator.encrypted, encryptTarget]
  | @«in» key name h values =>
    have hv : (values.map TargetValue.unencrypted).mapM (fun value =>
        Prod.snd <$> encryptNameValue wc keys (encryptName wc keys name) value) =
        .ok ((values.map TargetValue.unencrypted).map (encryptTarget wc keys name)) := by
      refine mapM_eq_ok_iff.mpr ?_
      rw [map_map, map_map, map_map]
      refine map_congr_left (fun s _ => ?_)
      simp only [Function.comp_apply, encryptNameValue_eq, map_ok,
        encryptValue_encryptName, encryptTarget]
    simp only [encryptQuery, transform, encryptOperator, hv, ok_bind,
      pure_eq_ok, Operator.encrypted]

/-- Encrypted operators: every value is encrypted exactly when its name is, and order and pattern
comparisons are made on plaintext tags only. -/
inductive Operator.Sealed : Operator → Prop
  | and {operators : List Operator} : (∀ o ∈ operators, Sealed o) → Sealed (.and operators)
  | or {operators : List Operator} : (∀ o ∈ operators, Sealed o) → Sealed (.or operators)
  | not {operator : Operator} : Sealed operator → Sealed (.not operator)
  | plain (c : Comparison) (name : Bytes) (s : String) :
    Sealed (.compare c (.plainTagName name) (.unencrypted s))
  | eq (name value : Bytes) : Sealed (.compare .eq (.encryptedTagName name) (.encrypted value))
  | neq (name value : Bytes) : Sealed (.compare .neq (.encryptedTagName name) (.encrypted value))
  | inPlain (name : Bytes) (values : List String) :
    Sealed (.in (.plainTagName name) (values.map .unencrypted))
  | inEncrypted (name : Bytes) (values : List Bytes) :
    Sealed (.in (.encryptedTagName name) (values.map .encrypted))

variable (like : String → String → Bool) (tables : TagTables) (itemId : ℕ)

/-- Some plaintext tag of the item has the name and a value as asked. -/
def plainTag (name : Bytes) (p : String → Bool) : Bool :=
  tables.plaintext.rows.any (fun r => r.name = name ∧ p r.value ∧ r.itemId = itemId)

def encryptedTag (name : Bytes) (p : Bytes → Bool) : Bool :=
  tables.encrypted.rows.any (fun r => r.name = name ∧ p r.value ∧ r.itemId = itemId)

mutual

/-- What an encrypted operator says about the stored tags of an item. -/
def Operator.matches : Operator → Bool
  | .and operators => Operator.matchesAll operators
  | .or operators => Operator.matchesAny operators
  | .not operator => !operator.matches
  | .compare c (.plainTagName name) (.unencrypted s) =>
    plainTag tables itemId name (fun v => c.holds like v s)
  | .compare .eq (.encryptedTagName name) (.encrypted b) =>
    encryptedTag tables itemId name (fun v => v = b)
  | .compare .neq (.encryptedTagName name) (.encrypted b) =>
    encryptedTag tables itemId name (fun v => v ≠ b)
  | .compare _ _ _ => false
  | .in (.plainTagName name) values =>
    plainTag tables itemId name (fun v => .unencrypted v ∈ values)
  | .in (.encryptedTagName name) values =>
    encryptedTag tables itemId name (fun v => .encrypted v ∈ values)

def Operator.matchesAll : List Operator → Bool
  | [] => true
  | o :: operators => o.matches && Operator.matchesAll operators

def Operator.matchesAny : List Operator → Bool
  | [] => false
  | o :: operators => o.matches || Operator.matchesAny operators

end

@[simp] theorem Operator.matchesAll_eq_all (operators : List Operator) :
    Operator.matchesAll like tables itemId operators =
      operators.all (Operator.matches like tables itemId) := by
  induction operators with
  | nil => rfl
  | cons o operators ih => rw [matchesAll, ih, all_cons]

@[simp] theorem Operator.matchesAny_eq_any (operators : List Operator) :
    Operator.matchesAny like tables itemId operators =
      operators.any (Operator.matches like tables itemId) := by
  induction operators with
  | nil => rfl
  | cons o operators ih => rw [matchesAny, ih, any_cons]

theorem sealed_encrypted (h : o.Parsed) : (o.encrypted wc keys).Sealed := by
  induction h with
  | and h ih =>
    rw [Operator.encrypted, Operator.encryptedList_eq_map]
    exact .and (forall_mem_map.mpr ih)
  | or h ih =>
    rw [Operator.encrypted, Operator.encryptedList_eq_map]
    exact .or (forall_mem_map.mpr ih)
  | not h ih =>
    rw [Operator.encrypted]
    exact .not ih
  | @compare key name h c hc s =>
    rw [Operator.encrypted]
    cases name with
    | plainTagName name => exact .plain c _ s
    | encryptedTagName name =>
      rcases hc with rfl | rfl | hp
      · exact .eq _ _
      · exact .neq _ _
      · rw [TagName.ofText] at h
        split_ifs at h
        cases h
  | @«in» key name h values =>
    rw [Operator.encrypted, map_map]
    cases name with
    | plainTagName name => exact .inPlain _ values
    | encryptedTagName name =>
      have hv : values.map (encryptTarget wc keys (.encryptedTagName name) ∘ .unencrypted) =
          (values.map (fun s => encryptAsSearchable wc (Bytes.ofText s) keys.tagValueKey
            keys.tagsHmacKey)).map TargetValue.encrypted := by
        rw [map_map]
        rfl
      rw [hv]
      exact .inEncrypted _ _

variable {wc keys tables itemId} {tags : String → Option String} {key : String} {name : Bytes}

theorem holds_encryptTag_iff (h : TagsAre wc keys tables itemId tags) {n v : String} :
    tables.Holds itemId (encryptTag wc keys n v) ↔ tags n = some v := by
  rw [h]
  constructor
  · rintro ⟨n', v', hn, he⟩
    obtain ⟨rfl, rfl⟩ := (encryptTag_inj wc keys).mp he
    exact hn
  · exact fun hn => ⟨n, v, hn, rfl⟩

theorem encryptTag_of_plain (h : TagName.ofText key = .ok (.plainTagName name)) (v : String) :
    encryptTag wc keys key v = .plainText (encryptBareName wc keys name) v := by
  have hp := TagName.isPlain_of_ofText h
  rw [TagName.ofText] at h
  split_ifs at h
  cases h
  rw [encryptTag, if_pos hp]
  rfl

theorem encryptTag_of_encrypted {key : String} {name : Bytes}
    (h : TagName.ofText key = .ok (.encryptedTagName name)) (v : String) :
    encryptTag wc keys key v = .encrypted (encryptBareName wc keys name)
      (encryptAsSearchable wc (Bytes.ofText v) keys.tagValueKey keys.tagsHmacKey) := by
  rw [TagName.ofText] at h
  split_ifs at h with he hp
  · cases h
  · cases h
    rw [encryptTag, if_neg hp]
    rfl

theorem plainTag_eq (h : TagsAre wc keys tables itemId tags)
    (hk : TagName.ofText key = .ok (.plainTagName name)) (p : String → Bool) :
    plainTag tables itemId (encryptBareName wc keys name) p = (tags key).any p := by
  rw [Bool.eq_iff_iff, plainTag, any_eq_true, Option.any_eq_true]
  simp only [decide_eq_true_eq]
  constructor
  · rintro ⟨⟨n, v, i⟩, hr, rfl, hp, rfl⟩
    have hh : tables.Holds i (encryptTag wc keys key v) := by
      rw [encryptTag_of_plain hk]
      exact hr
    exact ⟨v, (holds_encryptTag_iff h).mp hh, hp⟩
  · rintro ⟨v, hv, hp⟩
    have hh := (holds_encryptTag_iff h).mpr hv
    rw [encryptTag_of_plain hk] at hh
    exact ⟨_, hh, rfl, hp, rfl⟩

theorem encryptedTag_eq (h : TagsAre wc keys tables itemId tags)
    (hk : TagName.ofText key = .ok (.encryptedTagName name)) (p : Bytes → Bool) :
    encryptedTag tables itemId (encryptBareName wc keys name) p = (tags key).any (fun v =>
      p (encryptAsSearchable wc (Bytes.ofText v) keys.tagValueKey keys.tagsHmacKey)) := by
  rw [Bool.eq_iff_iff, encryptedTag, any_eq_true, Option.any_eq_true]
  simp only [decide_eq_true_eq]
  constructor
  · rintro ⟨⟨n, b, i⟩, hr, rfl, hp, rfl⟩
    obtain ⟨n', v, hn, he⟩ := (h (.encrypted _ b)).mp hr
    have hname : n' = key := by
      have hne := congrArg Tag.name he
      rw [encryptTag_name, Tag.name] at hne
      have hkey := congrArg Tag.name (@encryptTag_of_encrypted wc keys _ _ hk v)
      rw [encryptTag_name, Tag.name] at hkey
      exact (encryptTagName_inj wc keys).mp (hne.symm.trans hkey.symm)
    subst hname
    rw [encryptTag_of_encrypted hk] at he
    cases he
    exact ⟨v, hn, hp⟩
  · rintro ⟨v, hv, hp⟩
    have hh := (holds_encryptTag_iff h).mpr hv
    rw [encryptTag_of_encrypted hk] at hh
    exact ⟨_, hh, rfl, hp, rfl⟩

theorem encryptValue_inj {a b : String} :
    encryptAsSearchable wc (Bytes.ofText a) keys.tagValueKey keys.tagsHmacKey =
      encryptAsSearchable wc (Bytes.ofText b) keys.tagValueKey keys.tagsHmacKey ↔ a = b :=
  (encryptAsSearchable_inj wc).trans Bytes.ofText_injective.eq_iff

/-- The encrypted operator says about the stored tags what the operator says about the tags. -/
theorem encrypted_matches (ht : TagsAre wc keys tables itemId tags) (h : o.Parsed) :
    (o.encrypted wc keys).matches like tables itemId = o.holds like tags := by
  induction h with
  | and h ih =>
    rw [Operator.encrypted, Operator.matches, holds, Operator.encryptedList_eq_map,
      Operator.matchesAll_eq_all, holdsAll_eq_all, all_map, Bool.eq_iff_iff,
      all_eq_true, all_eq_true]
    exact forall₂_congr (fun o ho => by rw [Function.comp_apply, ih o ho])
  | or h ih =>
    rw [Operator.encrypted, Operator.matches, holds, Operator.encryptedList_eq_map,
      Operator.matchesAny_eq_any, holdsAny_eq_any, any_map, Bool.eq_iff_iff,
      any_eq_true, any_eq_true]
    exact exists_congr (fun o => and_congr_right (fun ho => by rw [Function.comp_apply, ih o ho]))
  | not h ih => rw [Operator.encrypted, Operator.matches, holds, ih]
  | @compare key name hk c hc s =>
    rw [Operator.encrypted, holds, TagName.lookup_of_ofText tags hk]
    cases name with
    | plainTagName name =>
      rw [encryptName, encryptTarget, encryptValue, Operator.matches]
      exact plainTag_eq ht hk _
    | encryptedTagName name =>
      rcases hc with rfl | rfl | hp
      · rw [encryptName, encryptTarget, encryptValue, Operator.matches, encryptedTag_eq ht hk]
        simp only [encryptValue_inj, Comparison.holds]
      · rw [encryptName, encryptTarget, encryptValue, Operator.matches, encryptedTag_eq ht hk]
        simp only [encryptValue_inj, Comparison.holds, ne_eq]
      · rw [TagName.ofText] at hk
        split_ifs at hk
        cases hk
  | @«in» key name hk values =>
    rw [Operator.encrypted, holds, TagName.lookup_of_ofText tags hk]
    cases name with
    | plainTagName name =>
      rw [encryptName, Operator.matches, plainTag_eq ht hk]
      simp [encryptTarget, encryptValue]
    | encryptedTagName name =>
      rw [encryptName, Operator.matches, encryptedTag_eq ht hk]
      simp [encryptTarget, encryptValue, encryptValue_inj]

end IndySdk.Wallet.Language
