import IndySdk.LedgerIds

/-!
# Which identifiers name their components

An identifier of a schema can be taken apart again when its name and version are free of colons and
the version is not empty. For a credential definition the tag takes the part of the version, and the
schema must be referred to by a number that fits the ledger request.
-/

namespace IndySdk.LedgerIds

open Outcome List

/-- The requests and credentials find the components in the identifier of a schema. -/
structure SchemaReadBack (id did name version : String) : Prop where
  request : ∀ reqId protocolVersion identifier,
    buildGetSchemaRequest reqId protocolVersion identifier id =
      .ok (buildRequest reqId protocolVersion identifier ⟨getSchema, did, ⟨name, version⟩⟩)
  schemaIssuerDid : ∀ credDefId, (Credential.mk id credDefId).schemaIssuerDid = did
  schemaName : ∀ credDefId, (Credential.mk id credDefId).schemaName = name
  schemaVersion : ∀ credDefId, (Credential.mk id credDefId).schemaVersion = version

structure CredDefReadBack (id did ref_ : String) (signatureType : SignatureType) (tag : String) :
    Prop where
  request : ∀ reqId protocolVersion identifier, ∃ n : ℤ, toString n = ref_ ∧
    buildGetCredDefRequest reqId protocolVersion identifier id =
      .ok (buildRequest reqId protocolVersion identifier
        ⟨getCredDef, n, signatureType.toStr, did, some tag⟩)
  issuerDid : ∀ schemaId, (Credential.mk schemaId id).issuerDid = .ok did

def SchemaIdUnique (crates : IssuerCrates) (id did name version : String) : Prop :=
  ∀ did' name' version' attrs' schema',
    createSchema crates did' name' version' attrs' = .ok (id, schema') →
      did' = did ∧ name' = name ∧ version' = version

def CredDefIdUnique (crates : IssuerCrates) (protocolVersion : ℕ) (id did ref_ : String)
    (signatureType : SignatureType) (tag : String) : Prop :=
  ∀ recordExists' did' schema' tag' type' config' credDefConfig' ref' signatureType',
    prepareCreateAndStoreCredentialDefinition crates protocolVersion recordExists' did' schema' tag'
      type' config' = .ok (credDefConfig', ref', id, signatureType') →
      did' = did ∧ ref' = ref_ ∧ signatureType' = signatureType ∧ tag' = tag

variable {crates : IssuerCrates} {did name version id ref_ tag : String}
  {protocolVersion : ℕ} {signatureType : SignatureType}

theorem not_mem_of_validateDid
    (hbase58 : ∀ did bytes, crates.base58.fromBase58 did = .ok bytes → delimiter ∉ did.toList)
    (h : Crypto.validateDid crates.base58 did = .ok ()) : delimiter ∉ did.toList := by
  obtain ⟨bytes, hbytes⟩ := Crypto.validateDid_ok h
  exact hbase58 did bytes hbytes

theorem createSchema_ok {attrs : Finset String} {schema : SchemaV1}
    (h : createSchema crates did name version attrs = .ok (id, schema)) :
    Crypto.validateDid crates.base58 did = .ok () ∧ id = schemaId did name version := by
  obtain ⟨⟨⟩, hvalid, h⟩ := bind_eq_ok_iff.mp h
  split at h
  · cases h
  · cases h
    exact ⟨hvalid, rfl⟩

theorem prepare_ok {recordExists : String → IndyResult Bool} {schema : SchemaV1}
    {type_ : Option String} {config : Option CredentialDefinitionConfig}
    {credDefConfig : CredentialDefinitionConfig}
    (h : prepareCreateAndStoreCredentialDefinition crates protocolVersion recordExists did schema
      tag type_ config = .ok (credDefConfig, ref_, id, signatureType)) :
    Crypto.validateDid crates.base58 did = .ok () ∧ ref_ = schemaRef schema ∧
      id = credDefId protocolVersion did ref_ signatureType.toStr tag := by
  obtain ⟨⟨⟩, hvalid, h⟩ := bind_eq_ok_iff.mp h
  obtain ⟨signatureType', _, h⟩ := bind_eq_ok_iff.mp h
  obtain ⟨found, _, h⟩ := bind_eq_ok_iff.mp h
  cases found with
  | true => cases h
  | false =>
    cases h
    exact ⟨hvalid, rfl, rfl⟩

/-! ### The parts of an identifier -/

theorem toList_schemaId : (schemaId did name version).toList =
    did.toList ++ delimiter :: (schemaMarker.toList ++ delimiter ::
      (name.toList ++ delimiter :: version.toList)) := by
  simp [schemaId, String.toList_append]

theorem toList_credDefId (h : isNode13 protocolVersion = false) :
    (credDefId protocolVersion did ref_ signatureType.toStr tag).toList =
      did.toList ++ delimiter :: (credDefMarker.toList ++ delimiter ::
        (signatureType.toStr.toList ++ delimiter :: (ref_.toList ++ delimiter :: tag.toList))) := by
  simp [credDefId, h, String.toList_append]

theorem toList_credDefId_node13 (h : isNode13 protocolVersion = true) :
    (credDefId protocolVersion did ref_ signatureType.toStr tag).toList =
      did.toList ++ delimiter :: (credDefMarker.toList ++ delimiter ::
        (signatureType.toStr.toList ++ delimiter :: ref_.toList)) := by
  simp [credDefId, h, String.toList_append]

theorem not_mem_schemaMarker : delimiter ∉ schemaMarker.toList := by decide

theorem not_mem_credDefMarker : delimiter ∉ credDefMarker.toList := by decide

theorem not_mem_signatureType : delimiter ∉ signatureType.toStr.toList := by
  cases signatureType
  decide

theorem not_mem_of_splitParts {i : ℕ} {x : String} (h : (splitParts id)[i]? = some x) :
    delimiter ∉ x.toList := by
  obtain ⟨piece, hpiece, rfl⟩ := mem_map.mp (mem_of_getElem? h)
  rw [String.toList_ofList]
  exact Delimited.not_mem_of_mem_splitTerminator hpiece

theorem splitParts_of_splitOn {parts : List String}
    (h : id.toList.splitOn delimiter = parts.map String.toList) (hlast : parts.getLast? ≠ some "") :
    splitParts id = parts := by
  unfold splitParts
  rw [Delimited.splitTerminator_of_splitOn h, map_map]
  · simp
  · rw [getLast?_map]
    intro hempty
    obtain ⟨last, hlast', he⟩ := Option.map_eq_some_iff.mp hempty
    exact hlast (by rw [hlast', String.toList_eq_nil_iff.mp he])

theorem splitParts_of_splitOn_snoc {parts : List String}
    (h : id.toList.splitOn delimiter = parts.map String.toList ++ [[]]) :
    splitParts id = parts := by
  unfold splitParts
  rw [Delimited.splitTerminator_of_splitOn_snoc h, map_map]
  simp

theorem splitOn_schemaId (hdid : delimiter ∉ did.toList) (hname : delimiter ∉ name.toList)
    (hversion : delimiter ∉ version.toList) :
    (schemaId did name version).toList.splitOn delimiter =
      [did, schemaMarker, name, version].map String.toList := by
  rw [toList_schemaId, splitOn_append_cons_self_of_not_mem hdid,
    splitOn_append_cons_self_of_not_mem not_mem_schemaMarker,
    splitOn_append_cons_self_of_not_mem hname, splitOn_eq_singleton hversion]
  rfl

theorem splitOn_credDefId (h13 : isNode13 protocolVersion = false)
    (hdid : delimiter ∉ did.toList) (href : delimiter ∉ ref_.toList)
    (htag : delimiter ∉ tag.toList) :
    (credDefId protocolVersion did ref_ signatureType.toStr tag).toList.splitOn delimiter =
      [did, credDefMarker, signatureType.toStr, ref_, tag].map String.toList := by
  rw [toList_credDefId h13, splitOn_append_cons_self_of_not_mem hdid,
    splitOn_append_cons_self_of_not_mem not_mem_credDefMarker,
    splitOn_append_cons_self_of_not_mem not_mem_signatureType,
    splitOn_append_cons_self_of_not_mem href, splitOn_eq_singleton htag]
  rfl

theorem splitOn_credDefId_node13 (h13 : isNode13 protocolVersion = true)
    (hdid : delimiter ∉ did.toList) (href : delimiter ∉ ref_.toList) :
    (credDefId protocolVersion did ref_ signatureType.toStr tag).toList.splitOn delimiter =
      [did, credDefMarker, signatureType.toStr, ref_].map String.toList := by
  rw [toList_credDefId_node13 h13, splitOn_append_cons_self_of_not_mem hdid,
    splitOn_append_cons_self_of_not_mem not_mem_credDefMarker,
    splitOn_append_cons_self_of_not_mem not_mem_signatureType,
    splitOn_eq_singleton href]
  rfl

/-! ### Schemas -/

theorem schemaReadBack (hdid : delimiter ∉ did.toList) (hname : delimiter ∉ name.toList)
    (hversion : delimiter ∉ version.toList) (hne : version ≠ "") :
    SchemaReadBack (schemaId did name version) did name version := by
  have hparts : splitParts (schemaId did name version) = [did, schemaMarker, name, version] := by
    apply splitParts_of_splitOn (splitOn_schemaId hdid hname hversion)
    simpa using hne
  constructor
  · intro reqId protocolVersion identifier
    simp only [buildGetSchemaRequest, part, hparts]
    rfl
  · intro credDefId
    simp only [Credential.schemaIssuerDid, Credential.schemaParts, hparts]
    rfl
  · intro credDefId
    simp only [Credential.schemaName, Credential.schemaParts, hparts]
    rfl
  · intro credDefId
    simp only [Credential.schemaVersion, Credential.schemaParts, hparts]
    rfl

theorem schemaId_injective {did' name' version' : String} (hdid : delimiter ∉ did.toList)
    (hdid' : delimiter ∉ did'.toList) (hname : delimiter ∉ name.toList)
    (hversion : delimiter ∉ version.toList)
    (h : schemaId did name version = schemaId did' name' version') :
    did' = did ∧ name' = name ∧ version' = version := by
  have hlist := congrArg String.toList h
  rw [toList_schemaId, toList_schemaId] at hlist
  obtain ⟨hdids, hlist⟩ := Delimited.eq_of_append_cons hdid hdid' hlist
  obtain ⟨_, hlist⟩ := Delimited.eq_of_append_cons not_mem_schemaMarker not_mem_schemaMarker hlist
  obtain ⟨hnames, hversions⟩ := Delimited.eq_of_append_cons_of_not_mem hname hversion hlist
  exact ⟨(String.toList_inj.mp hdids).symm, (String.toList_inj.mp hnames).symm,
    (String.toList_inj.mp hversions).symm⟩

theorem of_schemaReadBack (hdid : delimiter ∉ did.toList)
    (h : SchemaReadBack (schemaId did name version) did name version) :
    delimiter ∉ name.toList ∧ delimiter ∉ version.toList ∧ version ≠ "" := by
  have hrequest := h.request 0 0 none
  obtain ⟨dest, _, hrequest⟩ := bind_eq_ok_iff.mp hrequest
  obtain ⟨name', hname', hrequest⟩ := bind_eq_ok_iff.mp hrequest
  obtain ⟨version', hversion', hrequest⟩ := bind_eq_ok_iff.mp hrequest
  cases hrequest
  have hname' := ofOption_eq_ok.mp hname'
  have hversion' := ofOption_eq_ok.mp hversion'
  have hname := not_mem_of_splitParts hname'
  refine ⟨hname, not_mem_of_splitParts hversion', ?_⟩
  intro hempty
  rw [hempty] at hversion'
  have hparts : splitParts (schemaId did name "") = [did, schemaMarker, name] :=
    splitParts_of_splitOn_snoc (splitOn_schemaId hdid hname not_mem_nil)
  rw [hparts] at hversion'
  cases hversion'

/-! ### Credential definitions -/

/-- The numeral of a number that fits the ledger request. -/
def IsRefNumeral (ref_ : String) : Prop :=
  ∃ n : ℤ, -2 ^ 31 ≤ n ∧ n < 2 ^ 31 ∧ ref_ = toString n

theorem not_mem_toString_int (n : ℤ) : delimiter ∉ (toString n).toList :=
  Numerals.not_mem_toString (by decide) (by decide) n

theorem credDefReadBack (h13 : isNode13 protocolVersion = false) (hdid : delimiter ∉ did.toList)
    (href : IsRefNumeral ref_) (htag : delimiter ∉ tag.toList) (hne : tag ≠ "") :
    CredDefReadBack (credDefId protocolVersion did ref_ signatureType.toStr tag) did ref_
      signatureType tag := by
  obtain ⟨n, hlow, hhigh, rfl⟩ := href
  have hparts : splitParts (credDefId protocolVersion did (toString n) signatureType.toStr tag) =
      [did, credDefMarker, signatureType.toStr, toString n, tag] := by
    apply splitParts_of_splitOn (splitOn_credDefId h13 hdid (not_mem_toString_int n) htag)
    simpa using hne
  constructor
  · intro reqId protocolVersion' identifier
    refine ⟨n, rfl, ?_⟩
    simp only [buildGetCredDefRequest, part, hparts, getElem?_cons_zero,
      getElem?_cons_succ, ofOption_some, ok_bind]
    rw [Numerals.parseSigned_toString hlow hhigh]
    rfl
  · intro schemaId
    simp only [Credential.issuerDid, hparts]
    rfl

theorem credDefId_injective {did' ref' tag' : String} {signatureType' : SignatureType}
    (h13 : isNode13 protocolVersion = false) (hdid : delimiter ∉ did.toList)
    (hdid' : delimiter ∉ did'.toList) (href : delimiter ∉ ref_.toList)
    (htag : delimiter ∉ tag.toList)
    (h : credDefId protocolVersion did ref_ signatureType.toStr tag =
      credDefId protocolVersion did' ref' signatureType'.toStr tag') :
    did' = did ∧ ref' = ref_ ∧ signatureType' = signatureType ∧ tag' = tag := by
  have hlist := congrArg String.toList h
  rw [toList_credDefId h13, toList_credDefId h13] at hlist
  obtain ⟨hdids, hlist⟩ := Delimited.eq_of_append_cons hdid hdid' hlist
  obtain ⟨_, hlist⟩ := Delimited.eq_of_append_cons not_mem_credDefMarker not_mem_credDefMarker hlist
  obtain ⟨_, hlist⟩ :=
    Delimited.eq_of_append_cons not_mem_signatureType not_mem_signatureType hlist
  obtain ⟨hrefs, htags⟩ := Delimited.eq_of_append_cons_of_not_mem href htag hlist
  refine ⟨(String.toList_inj.mp hdids).symm, (String.toList_inj.mp hrefs).symm, ?_,
    (String.toList_inj.mp htags).symm⟩
  cases signatureType
  cases signatureType'
  rfl

theorem of_credDefReadBack (hdid : delimiter ∉ did.toList)
    (h : CredDefReadBack (credDefId protocolVersion did ref_ signatureType.toStr tag) did ref_
      signatureType tag) :
    isNode13 protocolVersion = false ∧ IsRefNumeral ref_ ∧ delimiter ∉ tag.toList ∧ tag ≠ "" := by
  obtain ⟨n, rfl, hrequest⟩ := h.request 0 0 none
  obtain ⟨origin, _, hrequest⟩ := bind_eq_ok_iff.mp hrequest
  obtain ⟨refPart, _, hrequest⟩ := bind_eq_ok_iff.mp hrequest
  obtain ⟨m, hm, hrequest⟩ := bind_eq_ok_iff.mp hrequest
  obtain ⟨signatureType', _, hrequest⟩ := bind_eq_ok_iff.mp hrequest
  have hoperation := congrArg Request.operation (Outcome.ok.inj hrequest)
  have hmn : m = n := congrArg GetCredDefOperation.ref_ hoperation
  have hpart := congrArg GetCredDefOperation.tag hoperation
  dsimp only [buildRequest] at hpart
  obtain ⟨hlow, hhigh⟩ := Numerals.bounds_of_parseSigned (ofOption_eq_ok.mp hm)
  rw [hmn] at hlow hhigh
  have href := not_mem_toString_int n
  have htag := not_mem_of_splitParts hpart
  have h13 : isNode13 protocolVersion = false := by
    by_contra hnode
    have hparts := splitParts_of_splitOn
      (@splitOn_credDefId_node13 did (toString n) tag protocolVersion signatureType
        (Bool.eq_true_of_not_eq_false hnode) hdid href)
      (by simpa using Numerals.toString_ne_empty n)
    rw [hparts] at hpart
    cases hpart
  refine ⟨h13, ⟨n, hlow, hhigh, rfl⟩, htag, ?_⟩
  intro hempty
  rw [hempty] at hpart
  have hparts : splitParts (credDefId protocolVersion did (toString n) signatureType.toStr "") =
      [did, credDefMarker, signatureType.toStr, toString n] :=
    splitParts_of_splitOn_snoc (splitOn_credDefId h13 hdid href not_mem_nil)
  rw [hparts] at hpart
  cases hpart

/-! ### The exact condition -/

/-- An accepted identifier stands for its components, and for no others, under this condition. -/
theorem ids_faithful_iff
    (hbase58 : ∀ did bytes, crates.base58.fromBase58 did = .ok bytes → delimiter ∉ did.toList) :
    (∀ did name version attrs id schema,
      createSchema crates did name version attrs = .ok (id, schema) →
        (SchemaReadBack id did name version ∧ SchemaIdUnique crates id did name version ↔
          delimiter ∉ name.toList ∧ delimiter ∉ version.toList ∧ version ≠ "")) ∧
    (∀ protocolVersion recordExists did schema tag type_ config credDefConfig ref_ id signatureType,
      prepareCreateAndStoreCredentialDefinition crates protocolVersion recordExists did schema tag
          type_ config = .ok (credDefConfig, ref_, id, signatureType) →
        (CredDefReadBack id did ref_ signatureType tag ∧
            CredDefIdUnique crates protocolVersion id did ref_ signatureType tag ↔
          isNode13 protocolVersion = false ∧ IsRefNumeral (schemaRef schema) ∧
            delimiter ∉ tag.toList ∧ tag ≠ "")) := by
  constructor
  · intro did name version attrs id schema haccepted
    obtain ⟨hvalid, rfl⟩ := createSchema_ok haccepted
    have hdid := not_mem_of_validateDid hbase58 hvalid
    constructor
    · rintro ⟨hread, _⟩
      exact of_schemaReadBack hdid hread
    · rintro ⟨hname, hversion, hne⟩
      refine ⟨schemaReadBack hdid hname hversion hne, ?_⟩
      intro did' name' version' attrs' schema' haccepted'
      obtain ⟨hvalid', hid⟩ := createSchema_ok haccepted'
      exact schemaId_injective hdid (not_mem_of_validateDid hbase58 hvalid') hname hversion hid
  · intro protocolVersion recordExists did schema tag type_ config credDefConfig ref_ id
      signatureType haccepted
    obtain ⟨hvalid, rfl, rfl⟩ := prepare_ok haccepted
    have hdid := not_mem_of_validateDid hbase58 hvalid
    constructor
    · rintro ⟨hread, _⟩
      exact of_credDefReadBack hdid hread
    · rintro ⟨h13, href, htag, hne⟩
      refine ⟨credDefReadBack h13 hdid href htag hne, ?_⟩
      intro recordExists' did' schema' tag' type' config' credDefConfig' ref' signatureType'
        haccepted'
      obtain ⟨hvalid', _, hid⟩ := prepare_ok haccepted'
      have hcolon : delimiter ∉ (schemaRef schema).toList := by
        obtain ⟨n, _, _, hn⟩ := href
        rw [hn]
        exact not_mem_toString_int n
      exact credDefId_injective h13 hdid (not_mem_of_validateDid hbase58 hvalid') hcolon htag hid

/-! ### An issuer of the test ledger -/

def issuerDid : String := "NcYxiDXkpYi6ov5FcYDi1e"

/-- A decoder that knows one identifier. -/
def issuerCrates : IssuerCrates where
  base58.fromBase58 did :=
    if did = issuerDid then
      .ok [175, 6, 163, 227, 41, 23, 20, 228, 243, 86, 193, 156, 155, 21, 205, 25]
    else
      .error "Invalid base58 byte"
  base58.toBase58 _ := issuerDid
  fromStr _ := none

theorem issuerCrates_base58 (did : String) (bytes : Bytes)
    (h : issuerCrates.base58.fromBase58 did = .ok bytes) : delimiter ∉ did.toList := by
  dsimp only [issuerCrates] at h
  split at h
  · rename_i he
    rw [he]
    decide +kernel
  · cases h

def gvtSchema (name version : String) : SchemaV1 where
  id := schemaId issuerDid name version
  name := name
  version := version
  attrNames := ∅
  seqNo := none

/-- Both identifiers of a schema that the ledger knows as transaction 12. -/
theorem gvt_faithful :
    (SchemaReadBack (schemaId issuerDid "gvt" "1.0") issuerDid "gvt" "1.0" ∧
      SchemaIdUnique issuerCrates (schemaId issuerDid "gvt" "1.0") issuerDid "gvt" "1.0") ∧
    (CredDefReadBack (credDefId 2 issuerDid "12" "CL" "tag1") issuerDid "12" .cl "tag1" ∧
      CredDefIdUnique issuerCrates 2 (credDefId 2 issuerDid "12" "CL" "tag1") issuerDid "12" .cl
        "tag1") := by
  obtain ⟨hschema, hcredDef⟩ := ids_faithful_iff issuerCrates_base58
  constructor
  · refine (hschema issuerDid "gvt" "1.0" ∅ _ (gvtSchema "gvt" "1.0") rfl).mpr ?_
    decide +kernel
  · refine (hcredDef 2 (fun _ => .ok false) issuerDid
      { gvtSchema "gvt" "1.0" with seqNo := some 12 }
      "tag1" none none {} "12" _ .cl (by decide +kernel)).mpr ?_
    refine ⟨rfl, ⟨12, by decide, by decide, by decide +kernel⟩, ?_⟩
    decide +kernel

/-- A colon moved from the version to the name leaves the identifier the same. -/
theorem colonSchema_not_faithful :
    createSchema issuerCrates issuerDid "gvt:1" "0" ∅ =
        .ok (schemaId issuerDid "gvt:1" "0", gvtSchema "gvt:1" "0") ∧
      ¬ SchemaReadBack (schemaId issuerDid "gvt:1" "0") issuerDid "gvt:1" "0" ∧
      ¬ SchemaIdUnique issuerCrates (schemaId issuerDid "gvt:1" "0") issuerDid "gvt:1" "0" := by
  refine ⟨rfl, ?_, ?_⟩
  · intro hread
    have hname : (Credential.mk (schemaId issuerDid "gvt:1" "0") "").schemaName = "gvt" := by
      decide +kernel
    rw [hread.schemaName] at hname
    exact absurd hname (by decide)
  · intro hunique
    have haccepted : createSchema issuerCrates issuerDid "gvt" "1:0" ∅ =
        .ok (schemaId issuerDid "gvt:1" "0", gvtSchema "gvt" "1:0") := by
      decide +kernel
    exact absurd (hunique issuerDid "gvt" "1:0" ∅ _ haccepted).2.1 (by decide)

end IndySdk.LedgerIds
