import IndySdk.CredentialSearch
import IndySdk.LedgerIds
import IndySdk.WalletQuery

/-!
# Tags of credentials and queries for them

A credential is stored with tags for its identifiers and, under the common view of their names, for
its attributes. A query writes the requested name in the common view too, but passes on the names
in its restrictions as they stand.
-/

open List

namespace IndySdk.Wallet.Language

open Outcome

/-! ### Keys of a query -/

mutual

/-- The tags that an object of a query asks for. -/
def keysOfMembers : List (String × Json) → List String
  | [] => []
  | (key, value) :: members => keysOfMember key value ++ keysOfMembers members

def keysOfMember (key : String) : Json → List String
  | .arr values => keysOfObjects values
  | .obj members => if key = "$not" then keysOfMembers members else [key]
  | _ => [key]

def keysOfObjects : List Json → List String
  | [] => []
  | .obj members :: values => keysOfMembers members ++ keysOfObjects values
  | _ :: values => keysOfObjects values

end

section

variable {like : String → String → Bool} {tags tags' : String → Option String}

theorem holdsTagObject_congr {key : String} (h : tags key = tags' key)
    (members : List (String × Json)) :
    holdsTagObject like tags key members = holdsTagObject like tags' key members := by
  unfold holdsTagObject
  split
  · rw [holdsSingleOperator, holdsSingleOperator, h]
  · rfl

mutual

theorem holdsMembers_congr : ∀ members : List (String × Json),
    (∀ key ∈ keysOfMembers members, tags key = tags' key) →
      holdsMembers like tags members = holdsMembers like tags' members
  | [], _ => rfl
  | (key, value) :: members, h => by
    rw [keysOfMembers, forall_mem_append] at h
    rw [holdsMembers, holdsMembers, holdsMember_congr key value h.1, holdsMembers_congr members h.2]

theorem holdsMember_congr (key : String) : ∀ value : Json,
    (∀ k ∈ keysOfMember key value, tags k = tags' k) →
      holdsMember like tags key value = holdsMember like tags' key value
  | .arr values, h => by
    rw [holdsMember, holdsMember, holdsAll_congr values h, holdsAny_congr values h]
  | .obj members, h => by
    rw [keysOfMember] at h
    rw [holdsMember, holdsMember]
    split_ifs at h ⊢ with hnot
    · rw [holdsMembers_congr members h]
    · exact holdsTagObject_congr (h key (mem_singleton_self key)) members
  | .str s, h => by
    rw [holdsMember, holdsMember, h key (mem_singleton_self key)]
  | .null, _ | .bool _, _ | .int _, _ | .float _, _ => by simp only [holdsMember]

theorem holdsAll_congr : ∀ values : List Json,
    (∀ key ∈ keysOfObjects values, tags key = tags' key) →
      holdsAll like tags values = holdsAll like tags' values
  | [], _ => rfl
  | .obj members :: values, h => by
    rw [keysOfObjects, forall_mem_append] at h
    rw [holdsAll, holdsAll, holdsMembers_congr members h.1, holdsAll_congr values h.2]
  | .null :: _, _ | .bool _ :: _, _ | .int _ :: _, _ | .float _ :: _, _ | .str _ :: _, _
  | .arr _ :: _, _ => rfl

theorem holdsAny_congr : ∀ values : List Json,
    (∀ key ∈ keysOfObjects values, tags key = tags' key) →
      holdsAny like tags values = holdsAny like tags' values
  | [], _ => rfl
  | .obj members :: values, h => by
    rw [keysOfObjects, forall_mem_append] at h
    rw [holdsAny, holdsAny, holdsMembers_congr members h.1, holdsAny_congr values h.2]
  | .null :: _, _ | .bool _ :: _, _ | .int _ :: _, _ | .float _ :: _, _ | .str _ :: _, _
  | .arr _ :: _, _ => rfl

end

theorem holdsAll_append (values values' : List Json) : holdsAll like tags (values ++ values') =
    (holdsAll like tags values && holdsAll like tags values') := by
  induction values with
  | nil => rfl
  | cons value values ih =>
    cases value with
    | obj members => rw [cons_append, holdsAll, holdsAll, ih, Bool.and_assoc]
    | _ => rfl

end

end IndySdk.Wallet.Language

namespace IndySdk.Anoncreds

open Outcome
open Wallet.Language (Operator TagName holdsMembers holdsMember holdsAll holdsAny keysOfObjects
  keysOfMembers keysOfMember parse parseMembers parseOperator parseObjects)

/-! ### Tags of a credential -/

namespace Credential

variable (credential : Credential)

def schemaParts : List String := LedgerIds.splitParts credential.schemaId

def schemaIssuerDid : String := (schemaParts credential)[0]?.getD ""

def schemaName : String := (schemaParts credential)[2]?.getD ""

def schemaVersion : String := (schemaParts credential)[3]?.getD ""

/-- An identifier of a credential definition that is empty has no parts. -/
def issuerDid : IndyResult String :=
  unwrap (LedgerIds.splitParts credential.credDefId)[0]?

end Credential

def markerTag (name : String) : String := "attr::" ++ name ++ "::marker"

def valueTag (name : String) : String := "attr::" ++ name ++ "::value"

/-- The tags of an identifier or another fixed property. -/
def fixedTags (credential : Credential) (issuerDid : String) : List (String × String) :=
  [("schema_id", credential.schemaId), ("schema_issuer_did", credential.schemaIssuerDid),
    ("schema_name", credential.schemaName), ("schema_version", credential.schemaVersion),
    ("issuer_did", issuerDid), ("cred_def_id", credential.credDefId),
    ("rev_reg_id", credential.revRegId.getD "None")]

def attributeTags (name : String) (values : AttributeValues) : List (String × String) :=
  [(markerTag name, "1"), (valueTag name, values.raw)]

/-- Insert tags in order; a later tag replaces one of its name. -/
def insertTags (res : AssocMap String String) (tags : List (String × String)) :
    AssocMap String String :=
  tags.foldl (fun res tag => res.insert tag.1 tag.2) res

section

variable (toLowercase : String → String)

def buildCredentialTags (credential : Credential) : IndyResult (AssocMap String String) := do
  let issuerDid ← credential.issuerDid
  pure (credential.values.toPairs.foldl (fun res entry =>
    insertTags res (attributeTags (attrCommonView toLowercase entry.1) entry.2))
      (insertTags ∅ (fixedTags credential issuerDid)))

/-! ### What a request asks for -/

def HasAttribute (credential : Credential) (name : String) : Prop :=
  ∃ entry ∈ credential.values.toPairs,
    attrCommonView toLowercase entry.1 = attrCommonView toLowercase name

/-- What a credential has under a key of a restriction, in which a name stands for all attributes
that are written alike. -/
def Has (credential : Credential) (key value : String) : Prop :=
  (∃ did, credential.issuerDid = .ok did ∧ (key, value) ∈ fixedTags credential did) ∨
    ∃ entry ∈ credential.values.toPairs, ∃ name,
      attrCommonView toLowercase entry.1 = attrCommonView toLowercase name ∧
        (key, value) ∈ attributeTags name entry.2

/-- A choice among the values that a credential has under its keys. -/
structure Choice (credential : Credential) (f : String → Option String) : Prop where
  has : ∀ key value, f key = some value → Has toLowercase credential key value
  isSome : ∀ key value, Has toLowercase credential key value → (f key).isSome

variable (like : String → String → Bool)

/-- One of the restrictions of a list is to hold; nulls do not count. -/
def RestrictionsHold (f : String → Option String) : Option Json → Prop
  | none => True
  | some (.arr array) => array = [] ∨ ∃ members, .obj members ∈ array ∧
      holdsMembers like f (members.filter (fun m => ¬ m.2.isNull)) = true
  | some (.obj object) => holdsMembers like f object = true
  | some _ => False

def ExtraHolds (f : String → Option String) (referent : String)
    (extraQuery : Option ProofRequestExtraQuery) : Prop :=
  ∀ q, extraQuery.bind (fun exQuery => exQuery.lookup referent) = some q →
    holdsMembers like f q = true

def Fits (credential : Credential) (name referent : String) (restrictions : Option Json)
    (extraQuery : Option ProofRequestExtraQuery) : Prop :=
  HasAttribute toLowercase credential name ∧ ∃ f, Choice toLowercase credential f ∧
    RestrictionsHold like f restrictions ∧ ExtraHolds like f referent extraQuery

/-- Requests whose restrictions ask only for some keys find a credential exactly if it fits. -/
def FindsFitting (credential : Credential) (tags : AssocMap String String) (keys : Set String) :
    Prop :=
  ∀ name referent restrictions extraQuery subQueries members op,
    restrictionQueries restrictions = .ok subQueries →
    (∀ key ∈ keysOfObjects (subQueries ++ extraQueries referent extraQuery), key ∈ keys) →
    buildQuery toLowercase name referent restrictions extraQuery = .ok (.obj members) →
    parse members = .ok op →
    (op.holds like (fun key => tags.lookup key) = true ↔
      Fits toLowercase like credential name referent restrictions extraQuery)

/-- Keys write the names of attributes that a credential has in the common view, and its attributes
that are written alike have one value where a key asks for it. -/
structure CommonlyWritten (credential : Credential) (keys : Set String) : Prop where
  names : ∀ name, markerTag name ∈ keys ∨ valueTag name ∈ keys →
    HasAttribute toLowercase credential name → attrCommonView toLowercase name = name
  values : ∀ name, valueTag name ∈ keys → ∀ entry ∈ credential.values.toPairs,
    ∀ entry' ∈ credential.values.toPairs,
      attrCommonView toLowercase entry.1 = attrCommonView toLowercase name →
      attrCommonView toLowercase entry'.1 = attrCommonView toLowercase name →
        entry.2.raw = entry'.2.raw

/-! ### Names of tags -/

variable {name name' key value value' did : String} {credential : Credential}

theorem markerTag_injective (h : markerTag name = markerTag name') : name = name' :=
  String.append_right_inj _ |>.mp (String.append_left_inj _ |>.mp h)

theorem valueTag_injective (h : valueTag name = valueTag name') : name = name' :=
  String.append_right_inj _ |>.mp (String.append_left_inj _ |>.mp h)

theorem markerTag_ne_valueTag : markerTag name ≠ valueTag name' := by
  intro h
  have hlast := congrArg (fun s => s.toList.reverse.head?) h
  simp [markerTag, valueTag] at hlast

theorem mem_attributeTags {values : AttributeValues} :
    (key, value) ∈ attributeTags name values ↔
      key = markerTag name ∧ value = "1" ∨ key = valueTag name ∧ value = values.raw := by
  simp [attributeTags]

theorem head?_of_mem_attributeTags {values : AttributeValues}
    (h : (key, value) ∈ attributeTags name values) : key.toList.head? = some 'a' := by
  obtain ⟨rfl, -⟩ | ⟨rfl, -⟩ := mem_attributeTags.mp h
  · simp [markerTag]
  · simp [valueTag]

def fixedKeys : List String :=
  ["schema_id", "schema_issuer_did", "schema_name", "schema_version", "issuer_did", "cred_def_id",
    "rev_reg_id"]

theorem fixedTags_functional (h : (key, value) ∈ fixedTags credential did)
    (h' : (key, value') ∈ fixedTags credential did) : value = value' := by
  have hnodup : ((fixedTags credential did).map Prod.fst).Nodup :=
    (by decide +kernel : fixedKeys.Nodup)
  exact (Prod.mk.inj (inj_on_of_nodup_map hnodup h h' rfl)).2

theorem not_mem_fixedTags (h : key.toList.head? = some 'a') :
    (key, value) ∉ fixedTags credential did := by
  intro hmem
  have hall : ∀ k ∈ fixedKeys, k.toList.head? ≠ some 'a' := by decide +kernel
  exact hall key (mem_map_of_mem (f := Prod.fst) hmem) h

/-! ### The tags that are made -/

theorem mem_of_lookup_insertTags {res : AssocMap String String} {tags : List (String × String)}
    (h : (insertTags res tags).lookup key = some value) :
    (key, value) ∈ tags ∨ res.lookup key = some value := by
  induction tags generalizing res with
  | nil => exact .inr h
  | cons tag tags ih =>
    obtain hmem | hlookup := ih h
    · exact .inl (mem_cons_of_mem _ hmem)
    · obtain ⟨rfl, rfl⟩ | ⟨-, hlookup⟩ := AssocMap.lookup_insert_eq_some.mp hlookup
      · exact .inl mem_cons_self
      · exact .inr hlookup

theorem mem_insertTags {res : AssocMap String String} {tags : List (String × String)} :
    key ∈ insertTags res tags ↔ key ∈ tags.map Prod.fst ∨ key ∈ res := by
  induction tags generalizing res with
  | nil => simp [insertTags]
  | cons tag tags ih =>
    rw [insertTags, foldl_cons]
    refine ih.trans ?_
    rw [AList.mem_insert, map_cons, mem_cons, or_left_comm, or_assoc]

variable {toLowercase like} {tags : AssocMap String String}

theorem buildCredentialTags_eq_ok (h : buildCredentialTags toLowercase credential = .ok tags) :
    ∃ did, credential.issuerDid = .ok did ∧ tags = insertTags ∅ (fixedTags credential did ++
      credential.values.toPairs.flatMap (fun entry =>
        attributeTags (attrCommonView toLowercase entry.1) entry.2)) := by
  obtain ⟨did, hdid, h⟩ := bind_eq_ok_iff.mp h
  refine ⟨did, hdid, ?_⟩
  rw [insertTags, foldl_append, foldl_flatMap]
  exact (Outcome.ok.inj h).symm

theorem of_lookup_tags (h : buildCredentialTags toLowercase credential = .ok tags)
    (hkey : tags.lookup key = some value) :
    (∃ did, credential.issuerDid = .ok did ∧ (key, value) ∈ fixedTags credential did) ∨
      ∃ entry ∈ credential.values.toPairs,
        (key, value) ∈ attributeTags (attrCommonView toLowercase entry.1) entry.2 := by
  obtain ⟨did, hdid, rfl⟩ := buildCredentialTags_eq_ok h
  obtain hmem | hnone := mem_of_lookup_insertTags hkey
  · obtain hmem | hmem := mem_append.mp hmem
    · exact .inl ⟨did, hdid, hmem⟩
    · exact .inr (mem_flatMap.mp hmem)
  · cases hnone

theorem exists_lookup_fixed (h : buildCredentialTags toLowercase credential = .ok tags)
    (hdid : credential.issuerDid = .ok did) (hmem : (key, value) ∈ fixedTags credential did) :
    ∃ value', tags.lookup key = some value' := by
  obtain ⟨did', hdid', rfl⟩ := buildCredentialTags_eq_ok h
  obtain rfl := Outcome.ok.inj (hdid.symm.trans hdid')
  rw [← Option.isSome_iff_exists, AList.lookup_isSome, mem_insertTags, map_append]
  exact .inl (mem_append_left _ (mem_map_of_mem (f := Prod.fst) hmem))

theorem exists_lookup_attribute (h : buildCredentialTags toLowercase credential = .ok tags)
    {entry : String × AttributeValues} (hentry : entry ∈ credential.values.toPairs)
    (hmem : (key, value) ∈ attributeTags (attrCommonView toLowercase entry.1) entry.2) :
    ∃ value', tags.lookup key = some value' := by
  obtain ⟨did, -, rfl⟩ := buildCredentialTags_eq_ok h
  rw [← Option.isSome_iff_exists, AList.lookup_isSome, mem_insertTags, map_append]
  exact .inl (mem_append_right _ (mem_map_of_mem (f := Prod.fst) (a := (key, value))
    (mem_flatMap.mpr ⟨entry, hentry, hmem⟩)))

theorem lookup_fixed (h : buildCredentialTags toLowercase credential = .ok tags)
    (hdid : credential.issuerDid = .ok did) (hmem : (key, value) ∈ fixedTags credential did) :
    tags.lookup key = some value := by
  obtain ⟨value', hkey⟩ := exists_lookup_fixed h hdid hmem
  obtain ⟨did', hdid', hmem'⟩ | ⟨entry, -, hmem'⟩ := of_lookup_tags h hkey
  · obtain rfl := Outcome.ok.inj (hdid.symm.trans hdid')
    rw [hkey, fixedTags_functional hmem hmem']
  · exact absurd hmem (not_mem_fixedTags (head?_of_mem_attributeTags hmem'))

theorem has_of_lookup_tags (hview : ∀ s, attrCommonView toLowercase (attrCommonView toLowercase s) =
      attrCommonView toLowercase s) (h : buildCredentialTags toLowercase credential = .ok tags)
    (hkey : tags.lookup key = some value) : Has toLowercase credential key value := by
  obtain hfixed | ⟨entry, hentry, hmem⟩ := of_lookup_tags h hkey
  · exact .inl hfixed
  · exact .inr ⟨entry, hentry, _, (hview entry.1).symm, hmem⟩

/-! ### What the query asks for -/

theorem marker_holds_iff (h : buildCredentialTags toLowercase credential = .ok tags) :
    tags.lookup (markerTag (attrCommonView toLowercase name)) = some "1" ↔
      HasAttribute toLowercase credential name := by
  have hhead : (markerTag (attrCommonView toLowercase name)).toList.head? = some 'a' := by
    simp [markerTag]
  constructor
  · intro hkey
    obtain ⟨did, -, hmem⟩ | ⟨entry, hentry, hmem⟩ := of_lookup_tags h hkey
    · exact absurd hmem (not_mem_fixedTags hhead)
    · obtain ⟨heq, -⟩ | ⟨heq, -⟩ := mem_attributeTags.mp hmem
      · exact ⟨entry, hentry, (markerTag_injective heq).symm⟩
      · exact absurd heq markerTag_ne_valueTag
  · rintro ⟨entry, hentry, heq⟩
    rw [← heq] at hhead ⊢
    obtain ⟨value, hkey⟩ := exists_lookup_attribute h hentry (mem_cons_self (l := _))
    rw [hkey]
    obtain ⟨did, -, hmem⟩ | ⟨entry', -, hmem⟩ := of_lookup_tags h hkey
    · exact absurd hmem (not_mem_fixedTags hhead)
    · obtain ⟨-, rfl⟩ | ⟨heq, -⟩ := mem_attributeTags.mp hmem
      · rfl
      · exact absurd heq markerTag_ne_valueTag

variable {f : String → Option String} {referent : String} {restrictions : Option Json}
  {extraQuery : Option ProofRequestExtraQuery} {subQueries : List Json}

theorem holdsAny_filtered {array res : List Json} (h : List.Forall₂ (fun subQuery a => ∃ members,
      subQuery = .obj members ∧ a = Json.obj (members.filter (fun m => ¬ m.2.isNull))) array res) :
    holdsAny like f res = true ↔ ∃ members, .obj members ∈ array ∧
      holdsMembers like f (members.filter (fun m => ¬ m.2.isNull)) = true := by
  induction h with
  | nil => simp [holdsAny]
  | cons hstep hrest ih =>
    obtain ⟨members, rfl, rfl⟩ := hstep
    rw [holdsAny, Bool.or_eq_true, ih]
    constructor
    · rintro (hfirst | ⟨others, hmem, hother⟩)
      · exact ⟨members, mem_cons_self, hfirst⟩
      · exact ⟨others, mem_cons_of_mem _ hmem, hother⟩
    · rintro ⟨others, hmem, hother⟩
      obtain heq | hmem := mem_cons.mp hmem
      · cases heq
        exact .inl hother
      · exact .inr ⟨others, hmem, hother⟩

theorem holdsAll_restrictionQueries (h : restrictionQueries restrictions = .ok subQueries) :
    holdsAll like f subQueries = true ↔ RestrictionsHold like f restrictions := by
  unfold restrictionQueries at h
  split at h
  · cases h
    exact iff_of_true rfl trivial
  · rename_i array
    obtain ⟨res, hres, h⟩ := bind_eq_ok_iff.mp h
    cases h
    have hfiltered : List.Forall₂ (fun subQuery a => ∃ members, subQuery = .obj members ∧
        a = Json.obj (members.filter (fun m => ¬ m.2.isNull))) array res := by
      refine (mapM_eq_ok_iff_forall₂.mp hres).imp (fun subQuery a ha => ?_)
      obtain ⟨members, hobject, ha⟩ := bind_eq_ok_iff.mp ha
      cases subQuery with
      | obj members' =>
        cases hobject
        exact ⟨members, rfl, (Outcome.ok.inj ha).symm⟩
      | _ => cases hobject
    rw [RestrictionsHold, ← holdsAny_filtered hfiltered]
    cases hfiltered with
    | nil => exact iff_of_true rfl (.inl rfl)
    | cons hstep hrest => simp [holdsAll, holdsMembers, holdsMember]
  · cases h
    simp [holdsAll, RestrictionsHold]
  · cases h

theorem holdsAll_extraQueries :
    holdsAll like f (extraQueries referent extraQuery) = true ↔
      ExtraHolds like f referent extraQuery := by
  unfold extraQueries ExtraHolds
  split
  · rename_i q hq
    rw [hq]
    simp [holdsAll]
  · rename_i hq
    rw [hq]
    exact iff_of_true rfl (by rintro q ⟨⟩)

theorem holds_buildQuery_iff {members : List (String × Json)} {op : Operator}
    (hsub : restrictionQueries restrictions = .ok subQueries)
    (hquery : buildQuery toLowercase name referent restrictions extraQuery = .ok (.obj members))
    (hparse : parse members = .ok op) :
    op.holds like f = true ↔ f (markerTag (attrCommonView toLowercase name)) = some "1" ∧
      holdsAll like f (subQueries ++ extraQueries referent extraQuery) = true := by
  rw [buildQuery, hsub, ok_bind] at hquery
  cases hquery
  rw [Wallet.Language.parse_holds like f hparse]
  simp only [cons_append, holdsMembers, holdsMember, holdsAll,
    if_true, Bool.and_true, Bool.and_eq_true, decide_eq_true_eq]
  rfl

/-! ### Which requests agree -/

theorem exists_choice (h : Has toLowercase credential key value) :
    ∃ f, Choice toLowercase credential f ∧ f key = some value := by
  classical
  refine ⟨fun k => if k = key then some value else
    if hk : ∃ v, Has toLowercase credential k v then some hk.choose else none, ⟨?_, ?_⟩, if_pos rfl⟩
  · intro k v hf
    split_ifs at hf with heq hk
    · cases hf
      rwa [heq]
    · cases hf
      exact hk.choose_spec
  · intro k v hv
    split_ifs with heq hk
    · rfl
    · rfl
    · exact absurd ⟨v, hv⟩ hk

/-- The tags are the only choice for some keys. -/
def Determined (toLowercase : String → String) (credential : Credential)
    (tags : AssocMap String String) (keys : Set String) : Prop :=
  ∀ key ∈ keys, ∀ value, Has toLowercase credential key value → tags.lookup key = some value

theorem Choice.eq_lookup {keys : Set String} (hview : ∀ s, attrCommonView toLowercase
      (attrCommonView toLowercase s) = attrCommonView toLowercase s)
    (h : buildCredentialTags toLowercase credential = .ok tags)
    (hdetermined : Determined toLowercase credential tags keys)
    (hchoice : Choice toLowercase credential f) (hkey : key ∈ keys) : f key = tags.lookup key := by
  cases hf : f key with
  | some value => exact (hdetermined key hkey value (hchoice.has key value hf)).symm
  | none =>
    cases hlookup : tags.lookup key with
    | none => rfl
    | some value =>
      have hsome := hchoice.isSome key value (has_of_lookup_tags hview h hlookup)
      rw [hf] at hsome
      cases hsome

theorem findsFitting_of_determined {keys : Set String} (hview : ∀ s, attrCommonView toLowercase
      (attrCommonView toLowercase s) = attrCommonView toLowercase s)
    (h : buildCredentialTags toLowercase credential = .ok tags)
    (hdetermined : Determined toLowercase credential tags keys) :
    FindsFitting toLowercase like credential tags keys := by
  intro name referent restrictions extraQuery subQueries members op hsub hkeys hquery hparse
  have hcongr : ∀ f, Choice toLowercase credential f →
      (holdsAll like (fun key => tags.lookup key)
          (subQueries ++ extraQueries referent extraQuery) = true ↔
        RestrictionsHold like f restrictions ∧ ExtraHolds like f referent extraQuery) := by
    intro f hf
    rw [← holdsAll_restrictionQueries hsub, ← holdsAll_extraQueries, ← Bool.and_eq_true,
      ← Wallet.Language.holdsAll_append, Wallet.Language.holdsAll_congr _ (fun key hkey =>
        hf.eq_lookup hview h hdetermined (hkeys key hkey))]
  rw [holds_buildQuery_iff hsub hquery hparse, marker_holds_iff h, Fits]
  refine and_congr_right fun hname => ?_
  constructor
  · intro hholds
    obtain ⟨entry, hentry, heq⟩ := hname
    obtain ⟨f, hf, -⟩ := exists_choice (.inr ⟨entry, hentry, name, heq, mem_cons_self⟩)
    exact ⟨f, hf, (hcongr f hf).mp hholds⟩
  · rintro ⟨f, hf, hholds⟩
    exact (hcongr f hf).mpr hholds

theorem exists_parseMembers (h : key.toList.head? = some 'a') (value : String) :
    ∃ o, parseMembers [(key, .str value)] = .ok [o] := by
  have hne : ∀ special : String, special.toList.head? ≠ some 'a' → key ≠ special := by
    rintro special hspecial rfl
    exact hspecial h
  have hname : TagName.ofText key =
      .ok (.encryptedTagName (Bytes.ofText key)) := by
    have hplain : ¬ Wallet.isPlain key := by simp [Wallet.isPlain, h]
    rw [TagName.ofText, if_neg (by simp [hne "" (by simp), hplain]),
      if_neg hplain]
  have hand := hne "$and" (by simp)
  have hor := hne "$or" (by simp)
  have hnot := hne "$not" (by simp)
  refine ⟨.compare .eq (.encryptedTagName (Bytes.ofText key)) (.unencrypted value), ?_⟩
  simp only [parseMembers, parseOperator, hand, hor, hnot, hname,
    or_self, if_false]
  rfl

theorem exists_parse_pair (h : key.toList.head? = some 'a') (value : String)
    {key' : String} (h' : key'.toList.head? = some 'a') (value' : String) :
    ∃ op, parse
      [("$and", .arr [.obj [(key, .str value)], .obj [(key', .str value')]])] = .ok op := by
  obtain ⟨o, ho⟩ := exists_parseMembers h value
  obtain ⟨o', ho'⟩ := exists_parseMembers h' value'
  refine ⟨.and [o, o'], ?_⟩
  rw [parse, parseMembers, parseOperator,
    if_pos rfl, parseObjects, ho, ok_bind, parseObjects, ho',
    ok_bind]
  rfl

theorem determined_of_findsFitting {keys : Set String}
    (h : buildCredentialTags toLowercase credential = .ok tags)
    (hfinds : FindsFitting toLowercase like credential tags keys) :
    Determined toLowercase credential tags keys := by
  intro key hkey value hhas
  obtain ⟨did, hdid, hmem⟩ | ⟨entry, hentry, name, heq, hmem⟩ := id hhas
  · exact lookup_fixed h hdid hmem
  · -- the attribute is requested with the one restriction
    have hmarker : (markerTag (attrCommonView toLowercase entry.1)).toList.head? = some 'a' := by
      simp [markerTag]
    obtain ⟨op, hop⟩ :=
      exists_parse_pair hmarker "1" (head?_of_mem_attributeTags hmem) value
    have hsub : restrictionQueries (some (.obj [(key, .str value)])) =
        .ok [.obj [(key, .str value)]] := rfl
    have hquery : buildQuery toLowercase entry.1 "" (some (.obj [(key, .str value)])) none =
        .ok (.obj [("$and", .arr [.obj
          [(markerTag (attrCommonView toLowercase entry.1), .str "1")],
          .obj [(key, .str value)]])]) := by
      rw [buildQuery, hsub]
      rfl
    have hextra : extraQueries "" none = [] := rfl
    have hkeys : ∀ k ∈ keysOfObjects ([.obj [(key, .str value)]] ++ extraQueries "" none),
        k ∈ keys := by
      intro k hk
      simp only [hextra, append_nil, keysOfObjects, keysOfMembers,
        keysOfMember, mem_singleton] at hk
      rwa [hk]
    have hfound := hfinds entry.1 "" _ none _ _ op hsub hkeys hquery hop
    obtain ⟨f, hf, hvalue⟩ := exists_choice hhas
    have hholds := hfound.mpr ⟨⟨entry, hentry, rfl⟩, f, hf, by
      simp [RestrictionsHold, holdsMembers, holdsMember, hvalue], by rintro q ⟨⟩⟩
    rw [holds_buildQuery_iff hsub hquery hop, hextra] at hholds
    simpa [holdsAll, holdsMembers, holdsMember] using hholds.2

theorem attributeTags_name_eq {values values' : AttributeValues}
    (h : (key, value) ∈ attributeTags name values)
    (h' : (key, value') ∈ attributeTags name' values') : name = name' := by
  obtain ⟨rfl, -⟩ | ⟨rfl, -⟩ := mem_attributeTags.mp h
  · obtain ⟨heq, -⟩ | ⟨heq, -⟩ := mem_attributeTags.mp h'
    · exact markerTag_injective heq
    · exact absurd heq markerTag_ne_valueTag
  · obtain ⟨heq, -⟩ | ⟨heq, -⟩ := mem_attributeTags.mp h'
    · exact absurd heq.symm markerTag_ne_valueTag
    · exact valueTag_injective heq

theorem attribute_of_lookup_tags (h : buildCredentialTags toLowercase credential = .ok tags)
    {values : AttributeValues} (hmem : (key, value) ∈ attributeTags name values)
    (hkey : tags.lookup key = some value') : ∃ entry ∈ credential.values.toPairs,
      attrCommonView toLowercase entry.1 = name ∧ (key, value') ∈ attributeTags name entry.2 := by
  obtain ⟨did, -, hmem'⟩ | ⟨entry, hentry, hmem'⟩ := of_lookup_tags h hkey
  · exact absurd hmem' (not_mem_fixedTags (head?_of_mem_attributeTags hmem))
  · have heq := attributeTags_name_eq hmem' hmem
    exact ⟨entry, hentry, heq, heq ▸ hmem'⟩

theorem determined_iff {keys : Set String} (hview : ∀ s, attrCommonView toLowercase
      (attrCommonView toLowercase s) = attrCommonView toLowercase s)
    (h : buildCredentialTags toLowercase credential = .ok tags) :
    Determined toLowercase credential tags keys ↔
      CommonlyWritten toLowercase credential keys := by
  constructor
  · intro hdetermined
    have hname : ∀ {name key value} {entry : String × AttributeValues}, key ∈ keys →
        entry ∈ credential.values.toPairs →
        attrCommonView toLowercase entry.1 = attrCommonView toLowercase name →
        (key, value) ∈ attributeTags name entry.2 →
          tags.lookup key = some value ∧ attrCommonView toLowercase name = name := by
      intro name key value entry hkey hentry heq hmem
      have hlookup := hdetermined key hkey value (.inr ⟨entry, hentry, name, heq, hmem⟩)
      obtain ⟨entry', -, rfl, -⟩ := attribute_of_lookup_tags h hmem hlookup
      exact ⟨hlookup, hview entry'.1⟩
    refine ⟨?_, ?_⟩
    · rintro name (hkey | hkey) ⟨entry, hentry, heq⟩
      · exact (hname hkey hentry heq mem_cons_self).2
      · exact (hname hkey hentry heq (mem_cons_of_mem _ mem_cons_self)).2
    · intro name hkey entry hentry entry' hentry' heq heq'
      have hlookup := (hname hkey hentry heq (mem_cons_of_mem _ mem_cons_self)).1
      rw [(hname hkey hentry' heq' (mem_cons_of_mem _ mem_cons_self)).1] at hlookup
      exact (Option.some.inj hlookup).symm
  · rintro ⟨hnames, hraws⟩ key hkey value (⟨did, hdid, hmem⟩ | ⟨entry, hentry, name, heq, hmem⟩)
    · exact lookup_fixed h hdid hmem
    · have hkeys : markerTag name ∈ keys ∨ valueTag name ∈ keys := by
        obtain ⟨rfl, -⟩ | ⟨rfl, -⟩ := mem_attributeTags.mp hmem
        · exact .inl hkey
        · exact .inr hkey
      have hname := hnames name hkeys ⟨entry, hentry, heq⟩
      obtain ⟨value', hlookup⟩ := exists_lookup_attribute h hentry (by rwa [heq, hname])
      rw [hlookup]
      obtain ⟨entry', hentry', heq', hmem'⟩ := attribute_of_lookup_tags h hmem hlookup
      obtain ⟨rfl, rfl⟩ | ⟨rfl, rfl⟩ := mem_attributeTags.mp hmem
      · obtain ⟨-, rfl⟩ | ⟨hne, -⟩ := mem_attributeTags.mp hmem'
        · rfl
        · exact absurd hne markerTag_ne_valueTag
      · obtain ⟨hne, -⟩ | ⟨-, rfl⟩ := mem_attributeTags.mp hmem'
        · exact absurd hne.symm markerTag_ne_valueTag
        · rw [hraws name hkey entry hentry entry' hentry' heq (by rw [heq', hname])]

/-- Requests find a credential exactly if it fits, as long as the names in the keys of their
restrictions are written as they are in tags. -/
theorem findsFitting_iff {keys : Set String} (hview : ∀ s, attrCommonView toLowercase
      (attrCommonView toLowercase s) = attrCommonView toLowercase s)
    (h : buildCredentialTags toLowercase credential = .ok tags) :
    FindsFitting toLowercase like credential tags keys ↔
      CommonlyWritten toLowercase credential keys :=
  ⟨fun hfinds => (determined_iff hview h).mp (determined_of_findsFitting h hfinds),
    fun hwritten => findsFitting_of_determined hview h ((determined_iff hview h).mpr hwritten)⟩

end

/-! ### An attribute whose name has a space -/

def namedCredential : Credential where
  schemaId := "did:2:schema:1.0"
  credDefId := "did:3:CL:1:tag"
  revRegId := none
  values := AList.insert "first name" ⟨"Alex", "1"⟩ ∅
  signatureIndex := none

theorem namedCredential_tags :
    ∃ tags, buildCredentialTags id namedCredential = .ok tags := by
  have hdid : namedCredential.issuerDid = .ok "did" := by rfl
  rw [buildCredentialTags, hdid]
  exact ⟨_, rfl⟩

theorem attrCommonView_id (s : String) :
    attrCommonView id (attrCommonView id s) = attrCommonView id s := by
  simp [attrCommonView, filter_filter]

/-- Requests that ask for the name as it is in the tags find the credential. -/
theorem findsFitting_iff_named : ∃ tags, buildCredentialTags id namedCredential = .ok tags ∧
    FindsFitting id (fun _ _ => false) namedCredential tags {valueTag "firstname"} := by
  obtain ⟨tags, htags⟩ := namedCredential_tags
  refine ⟨tags, htags, (findsFitting_iff attrCommonView_id htags).mpr ⟨?_, ?_⟩⟩
  · rintro name (hkey | hkey) -
    · exact absurd hkey markerTag_ne_valueTag
    · rw [valueTag_injective hkey]
      decide +kernel
  · intro name hkey entry hentry entry' hentry' heq heq'
    rw [mem_singleton.mp hentry, mem_singleton.mp hentry']

/-- A restriction on the attribute as the issuer named it does not find the credential. -/
theorem namedCredential_not_found : ∃ tags members op,
    buildCredentialTags id namedCredential = .ok tags ∧
    buildQuery id "first name" "referent" (some (.obj [("attr::first name::value", .str "Alex")]))
      none = .ok (.obj members) ∧
    parse members = .ok op ∧
    op.holds (fun _ _ => false) (fun key => tags.lookup key) = false ∧
    Fits id (fun _ _ => false) namedCredential "first name" "referent"
      (some (.obj [("attr::first name::value", .str "Alex")])) none := by
  obtain ⟨tags, htags⟩ := namedCredential_tags
  have hview : attrCommonView id "first name" = "firstname" := by decide +kernel
  have hentry : ("first name", (⟨"Alex", "1"⟩ : AttributeValues)) ∈
      namedCredential.values.toPairs := mem_cons_self
  have hmem : ("attr::first name::value", "Alex") ∈
      attributeTags "first name" ⟨"Alex", "1"⟩ := mem_cons_of_mem _ mem_cons_self
  obtain ⟨op, hop⟩ := exists_parse_pair (by decide +kernel :
    (markerTag "firstname").toList.head? = some 'a') "1" (head?_of_mem_attributeTags hmem) "Alex"
  have hsub : restrictionQueries (some (.obj [("attr::first name::value", .str "Alex")])) =
      .ok [.obj [("attr::first name::value", .str "Alex")]] := rfl
  have hquery : buildQuery id "first name" "referent"
      (some (.obj [("attr::first name::value", .str "Alex")])) none = .ok (.obj [("$and", .arr
        [.obj [(markerTag "firstname", .str "1")],
          .obj [("attr::first name::value", .str "Alex")]])]) := by
    rw [buildQuery, hsub, hview]
    rfl
  refine ⟨tags, _, op, htags, hquery, hop, ?_, ⟨_, hentry, rfl⟩, ?_⟩
  · rw [← Bool.not_eq_true, holds_buildQuery_iff hsub hquery hop]
    rintro ⟨-, hholds⟩
    have hkey : tags.lookup "attr::first name::value" = some "Alex" := by
      simpa [extraQueries, holdsAll, holdsMembers, holdsMember] using hholds
    obtain ⟨entry, hmem', heq, -⟩ := attribute_of_lookup_tags htags hmem hkey
    rw [mem_singleton.mp hmem'] at heq
    exact absurd (hview.symm.trans heq) (by decide)
  · have hhas : Has id namedCredential "attr::first name::value" "Alex" :=
      .inr ⟨_, hentry, "first name", rfl, hmem⟩
    obtain ⟨f, hf, hvalue⟩ := exists_choice hhas
    exact ⟨f, hf, by simp [RestrictionsHold, holdsMembers, holdsMember, hvalue],
      by rintro q ⟨⟩⟩

end IndySdk.Anoncreds
