import IndySdk.StateProofChecks
import IndySdk.RequestMachine

/-!
# What a state proof binds

Two replies of one built-in type, accepted for one key under one root, show one value. Their data
are the same exactly when the parts of the data that no value holds are.
-/

namespace IndySdk.Pool.StateProof

open Constants List Option Bytes Json

/-- The key of a reply. -/
def builtinKey (crates : Crates) (world : World) (type : String) (jsonMsg parsedData : Json) :
    Option Bytes := do
  let suffix ← keySuffix crates world type jsonMsg parsedData
  let front ← keyPrefix crates type jsonMsg
  some (front ++ ofText suffix)

/-- The object whose text the trie holds; for a schema it may be left out. -/
def provenValue (crates : Crates) (jsonMsg : Json) (data : String) (parsedData : Json)
    (xtype : String) : Option Json :=
  let value := valueBase jsonMsg xtype
  if xtype = getNym then
    some (((value.put "identifier" (parsedData.get "identifier")).put "role"
      (parsedData.get "role")).put "verkey" (parsedData.get "verkey"))
  else if xtype = getAttr then
    some (value.put "val" (.str (toHex (crates.sha256 (ofText data)))))
  else if xtype = getCredDef ∨ xtype = getRevocRegDef ∨ xtype = getRevocReg then
    some (value.put "val" parsedData)
  else if xtype = getSchema then
    match ((parsedData.remove "name").remove "version").asObject with
    | some [] => none
    | some map => some (value.put "val" (.obj map))
    | none => none
  else if xtype = getRevocRegDelta then
    some (value.put "val" ((parsedData.get "value").get "accum_to"))
  else none

/-- The parts of the data that the trie holds no value for, by the type of the reply. -/
def unproven (type : String) (data : Json) : Json :=
  if type = getNym then data.forget ["identifier", "role", "verkey"]
  else if type = getSchema then .arr [data.get "name", data.get "version"]
  else if type = getRevocRegDelta then
    .arr [data.forget ["revocRegDefId", "value"], (data.get "value").forget ["accum_to"]]
  else .null

/-- A reply that is accepted, with its data as text and as value, its key and its root. -/
structure AcceptedData (crates : Crates) (world : World) (nodes : Nodes) (f : ℕ) (gen : Generator)
    (type : String) (jsonMsg : Json) (text : Option String) (data : Json) (key : Bytes)
    (rootHash : String) : Prop where
  accepted : ∃ sps, parseReplyForBuiltinSp crates world jsonMsg type = some sps ∧
    verifyParsedSp crates world nodes f gen sps = .ok true
  parsed : parseData crates jsonMsg = some (text, data)
  named : builtinKey crates world type jsonMsg data = some key
  rooted : ((jsonMsg.get "state_proof").get "root_hash").asStr = some rootHash

/-- No two different inputs of the two checks share a digest or a text. -/
structure NoCollision (crates : Crates) (world world' : World) (type : String)
    (jsonMsg jsonMsg' : Json) (text text' : Option String) (data data' : Json) : Prop where
  /-- The views of a decoder on no bytes at all. -/
  emptyList : crates.rlp.iter [] = []
  nodes : ∀ proofsRlp proofsRlp' proof proof',
    (((jsonMsg.get "state_proof").get "proof_nodes").asStr.bind crates.base64Decode) =
      some proofsRlp → proofNodes crates world proofsRlp = .ok proof →
    (((jsonMsg'.get "state_proof").get "proof_nodes").asStr.bind crates.base64Decode) =
      some proofsRlp' → proofNodes crates world' proofsRlp' = .ok proof' →
    HashesApart crates proof proof'
  texts : ∀ t ∈ text, ∀ t' ∈ text',
    crates.sha256 (ofText t) = crates.sha256 (ofText t') → t = t'
  values : ∀ t ∈ text, ∀ t' ∈ text', ∀ v ∈ provenValue crates jsonMsg t data type,
    ∀ v' ∈ provenValue crates jsonMsg' t' data' type, crates.toStr v = crates.toStr v' → v = v'
  /-- Data that is written out reads back. -/
  readsBack : ∀ j ∈ [jsonMsg.get "data", jsonMsg'.get "data"], j.isObject = true →
    crates.valueFromStr (crates.toStr j) = some j

variable {crates : Crates} {world world' : World} {nodes nodes' : Nodes} {f f' : ℕ}
  {gen gen' : Generator} {type : String} {jsonMsg jsonMsg' : Json} {text text' : Option String}
  {data data' : Json} {key : Bytes} {rootHash : String}

theorem parseReplyForProofValue_some {t : String} {value : Option String}
    (h : parseReplyForProofValue crates jsonMsg (some t) data type = .ok value) :
    value = (provenValue crates jsonMsg t data type).map crates.toStr := by
  rw [parseReplyForProofValue] at h
  rw [provenValue]
  split_ifs at h ⊢
  · cases h
    rfl
  · cases h
    rfl
  · cases h
    rfl
  · cases data with
    | obj members =>
      simp only [Json.asObject, Json.remove] at h ⊢
      generalize (members.filter (fun m => m.1 ≠ "name")).filter (fun m => m.1 ≠ "version") =
        map at h ⊢
      cases map with
      | nil =>
        cases h
        rfl
      | cons m map =>
        cases h
        rfl
    | _ => cases h
  · cases h
    rfl

/-- An accepted reply shows the value put together from its fields. -/
theorem AcceptedData.shows
    (h : AcceptedData crates world nodes f gen type jsonMsg text data key rootHash) :
    ∃ proofsRlp root,
      (((jsonMsg.get "state_proof").get "proof_nodes").asStr.bind crates.base64Decode) =
        some proofsRlp ∧ crates.fromBase58 rootHash = some root ∧
      ∃ key', crates.base64Decode (crates.base64Encode key) = some key' ∧
        Shows crates world proofsRlp root key'
          ((text.bind (fun t => provenValue crates jsonMsg t data type)).map crates.toStr) := by
  obtain ⟨sps, hsps, hverify⟩ := h.accepted
  obtain ⟨parts⟩ := parseReplyForBuiltinSp_some hsps
  have hmem := parts.hsps ▸ mem_singleton_self _
  obtain ⟨proofsRlp, root, sp, hproofs, hroot, hkvs, hall⟩ :=
    (verifyParsedSp_ok hverify _ hmem).shown
  cases hkvs
  obtain ⟨key', hkey', hshows⟩ := hall _ (mem_singleton_self _)
  have hdata := parts.hdata
  rw [h.parsed, some_inj, Prod.mk.injEq] at hdata
  have hrooted := parts.hrootHash
  rw [h.rooted, some_inj] at hrooted
  have hkey : key = parts.front ++ ofText parts.suffix := by
    have hnamed := h.named
    rw [builtinKey, hdata.2, parts.hsuffix, bind_eq_bind, bind_some, parts.hfront,
      bind_eq_bind, bind_some, some_inj] at hnamed
    exact hnamed.symm
  have hvalue : parts.value =
      (text.bind (fun t => provenValue crates jsonMsg t data type)).map crates.toStr := by
    have hparts := parts.hvalue
    rw [← hdata.1, ← hdata.2] at hparts
    cases text with
    | none => exact (Except.ok.inj hparts).symm
    | some t => exact parseReplyForProofValue_some hparts
  refine ⟨proofsRlp, root, ?_, ?_, key', ?_, ?_⟩
  · rw [parts.hproof]
    exact hproofs
  · rw [hrooted]
    exact hroot
  · rw [hkey]
    exact hkey'
  · rw [← hvalue]
    exact hshows

theorem parseData_some (h : parseData crates jsonMsg = some (text, data)) :
    (text = none ∧ data = .null) ∨
      (∃ t, jsonMsg.get "data" = .str t ∧ text = some t ∧ crates.valueFromStr t = some data) ∨
      (jsonMsg.get "data" = data ∧ data.isObject = true ∧ text = some (crates.toStr data)) := by
  rw [parseData] at h
  cases hdata : jsonMsg.get "data" with
  | null =>
    rw [hdata] at h
    cases h
    exact .inl ⟨rfl, rfl⟩
  | str t =>
    rw [hdata] at h
    obtain ⟨value, hvalue, hpair⟩ := map_eq_some_iff.mp h
    cases hpair
    exact .inr (.inl ⟨t, rfl, rfl, hvalue⟩)
  | obj members =>
    rw [hdata] at h
    cases h
    exact .inr (.inr ⟨rfl, rfl, rfl⟩)
  | _ =>
    rw [hdata] at h
    cases h

theorem data_isValue {j : Json} (h : parseData crates j.toValue = some (text, data)) :
    ∃ j' : Json, data = j'.toValue := by
  rcases parseData_some h with ⟨-, rfl⟩ | ⟨t, -, -, hvalue⟩ | ⟨hobject, -, -⟩
  · exact ⟨.null, toValue_null.symm⟩
  · obtain ⟨j', -, rfl⟩ := map_eq_some_iff.mp hvalue
    exact ⟨j', rfl⟩
  · obtain ⟨j', hj'⟩ := exists_get_toValue "data" j
    exact ⟨j', hobject.symm.trans hj'⟩

theorem data_eq_of_text {t : String}
    (hreads : ∀ j ∈ [jsonMsg.get "data", jsonMsg'.get "data"], j.isObject = true →
      crates.valueFromStr (crates.toStr j) = some j)
    (h : parseData crates jsonMsg = some (some t, data))
    (h' : parseData crates jsonMsg' = some (some t, data')) : data = data' := by
  have hread : ∀ (msg d : Json), msg.get "data" ∈ [jsonMsg.get "data", jsonMsg'.get "data"] →
      parseData crates msg = some (some t, d) → crates.valueFromStr t = some d := by
    intro msg d hmem hmsg
    rcases parseData_some hmsg with ⟨hnone, -⟩ | ⟨s, -, hs, hvalue⟩ | ⟨hobject, his, hs⟩
    · cases hnone
    · cases hs
      exact hvalue
    · cases hs
      rw [hobject] at hmem
      exact hreads d hmem his
  have hd := hread jsonMsg data mem_cons_self h
  have hd' := hread jsonMsg' data' (mem_cons_of_mem _ mem_cons_self) h'
  rw [hd, some_inj] at hd'
  exact hd'

theorem builtinKey_some (h : builtinKey crates world type jsonMsg data = some key) :
    ∃ suffix front, keySuffix crates world type jsonMsg data = some suffix ∧
      keyPrefix crates type jsonMsg = some front ∧ key = front ++ ofText suffix := by
  obtain ⟨suffix, hsuffix, h⟩ := bind_eq_some_iff.mp h
  obtain ⟨front, hfront, h⟩ := bind_eq_some_iff.mp h
  exact ⟨suffix, front, hsuffix, hfront, (Option.some.inj h).symm⟩

theorem type_of_keySuffix {suffix : String}
    (h : keySuffix crates world type jsonMsg data = some suffix) :
    type = getNym ∨ type = getAttr ∨ (type = getCredDef ∨ type = getRevocRegDef ∨
      type = getRevocReg) ∨ type = getSchema ∨ type = getRevocRegDelta := by
  rw [keySuffix] at h
  by_cases hattr : type = getAttr
  · exact .inr (.inl hattr)
  rw [if_neg hattr] at h
  by_cases hcred : type = getCredDef
  · exact .inr (.inr (.inl (.inl hcred)))
  rw [if_neg hcred] at h
  by_cases hnym : type = getNym
  · exact .inl hnym
  rw [if_neg hnym] at h
  by_cases hschema : type = getSchema
  · exact .inr (.inr (.inr (.inl hschema)))
  rw [if_neg hschema] at h
  by_cases hdef : type = getRevocRegDef
  · exact .inr (.inr (.inl (.inr (.inl hdef))))
  rw [if_neg hdef] at h
  split_ifs at h with hreg
  rcases hreg.1 with hreg | hdelta
  · exact .inr (.inr (.inl (.inr (.inr hreg))))
  · exact .inr (.inr (.inr (.inr hdelta)))

theorem values_eq
    (h : AcceptedData crates world nodes f gen type jsonMsg text data key rootHash)
    (h' : AcceptedData crates world' nodes' f' gen' type jsonMsg' text' data' key rootHash)
    (hno : NoCollision crates world world' type jsonMsg jsonMsg' text text' data data') :
    text.bind (fun t => provenValue crates jsonMsg t data type) =
      text'.bind (fun t => provenValue crates jsonMsg' t data' type) := by
  obtain ⟨proofsRlp, root, hproofs, hroot, decoded, hdecoded, hshows⟩ := h.shows
  obtain ⟨proofsRlp', root', hproofs', hroot', decoded', hdecoded', hshows'⟩ := h'.shows
  rw [hroot, some_inj] at hroot'
  rw [hdecoded, some_inj] at hdecoded'
  rw [← hroot', ← hdecoded'] at hshows'
  have htexts := hshows.unique hno.emptyList
    (fun proof proof' hp hp' => hno.nodes proofsRlp proofsRlp' proof proof' hproofs hp hproofs' hp')
    hshows'
  cases hv : text.bind (fun t => provenValue crates jsonMsg t data type) with
  | none =>
    rw [hv, map_none] at htexts
    exact (map_eq_none_iff.mp htexts.symm).symm
  | some v =>
    rw [hv, map_some] at htexts
    obtain ⟨v', hv', hstr⟩ := map_eq_some_iff.mp htexts.symm
    obtain ⟨t, ht, hvt⟩ := bind_eq_some_iff.mp hv
    obtain ⟨t', ht', hvt'⟩ := bind_eq_some_iff.mp hv'
    rw [hv', hno.values t ht t' ht' v hvt v' hvt' hstr.symm]

theorem isObject_valueBase (jsonMsg : Json) (type : String) :
    (valueBase jsonMsg type).isObject = true := by
  rw [valueBase]
  split_ifs <;> exact isObject_put (isObject_put rfl)

theorem provenValue_nym (t : String) : provenValue crates jsonMsg t data getNym =
    some ((((valueBase jsonMsg getNym).put "identifier" (data.get "identifier")).put "role"
      (data.get "role")).put "verkey" (data.get "verkey")) := by
  rw [provenValue, if_pos rfl]

theorem provenValue_attr (t : String) : provenValue crates jsonMsg t data getAttr =
    some ((valueBase jsonMsg getAttr).put "val"
      (.str (toHex (crates.sha256 (ofText t))))) := by
  rw [provenValue, if_neg (by decide), if_pos rfl]

theorem provenValue_whole (t : String)
    (htype : type = getCredDef ∨ type = getRevocRegDef ∨ type = getRevocReg) :
    provenValue crates jsonMsg t data type = some ((valueBase jsonMsg type).put "val" data) := by
  have hnym : type ≠ getNym := by rcases htype with rfl | rfl | rfl <;> decide
  have hattr : type ≠ getAttr := by rcases htype with rfl | rfl | rfl <;> decide
  rw [provenValue, if_neg hnym, if_neg hattr, if_pos htype]

theorem provenValue_delta (t : String) : provenValue crates jsonMsg t data getRevocRegDelta =
    some ((valueBase jsonMsg getRevocRegDelta).put "val" ((data.get "value").get "accum_to")) := by
  rw [provenValue, if_neg (by decide), if_neg (by decide), if_neg (by decide), if_neg (by decide),
    if_pos rfl]

theorem provenValue_schema (t : String) (members : List (String × Json)) :
    provenValue crates jsonMsg t (.obj members) getSchema =
      match (members.filter (fun m => m.1 ≠ "name")).filter (fun m => m.1 ≠ "version") with
      | [] => none
      | map => some ((valueBase jsonMsg getSchema).put "val" (.obj map)) := by
  rw [provenValue, if_neg (by decide), if_neg (by decide), if_neg (by decide), if_pos rfl]
  simp only [Json.remove, Json.asObject]
  cases (members.filter (fun m => m.1 ≠ "name")).filter (fun m => m.1 ≠ "version") <;> rfl

theorem texts_of_values (hsome : ∀ t, provenValue crates jsonMsg t data type ≠ none)
    (hsome' : ∀ t, provenValue crates jsonMsg' t data' type ≠ none)
    (h : text.bind (fun t => provenValue crates jsonMsg t data type) =
      text'.bind (fun t => provenValue crates jsonMsg' t data' type)) :
    (text = none ∧ text' = none) ∨ ∃ t t', text = some t ∧ text' = some t' ∧
      provenValue crates jsonMsg t data type = provenValue crates jsonMsg' t' data' type := by
  cases text with
  | none =>
    cases text' with
    | none => exact .inl ⟨rfl, rfl⟩
    | some t' => exact absurd h.symm (hsome' t')
  | some t =>
    cases text' with
    | none => exact absurd h (hsome t)
    | some t' => exact .inr ⟨t, t', rfl, rfl, h⟩

theorem data_eq_null (h : parseData crates jsonMsg = some (none, data)) : data = .null := by
  rcases parseData_some h with ⟨-, hnull⟩ | ⟨t, -, hnone, -⟩ | ⟨-, -, hnone⟩
  · exact hnull
  · cases hnone
  · cases hnone

section

variable {j j' : Json}

theorem nym_data_eq (h : parseData crates j.toValue = some (text, data))
    (h' : parseData crates j'.toValue = some (text', data'))
    (hvalues : text.bind (fun t => provenValue crates j.toValue t data getNym) =
      text'.bind (fun t => provenValue crates j'.toValue t data' getNym))
    (hforget : unproven getNym data = unproven getNym data') : data = data' := by
  rcases texts_of_values (fun t => by rw [provenValue_nym]; exact some_ne_none _)
      (fun t => by rw [provenValue_nym]; exact some_ne_none _) hvalues with
    ⟨rfl, rfl⟩ | ⟨t, t', rfl, rfl, hvalue⟩
  · rw [data_eq_null h, data_eq_null h']
  · rw [provenValue_nym, provenValue_nym, some_inj] at hvalue
    have hbase := isObject_valueBase j.toValue getNym
    have hbase' := isObject_valueBase j'.toValue getNym
    have hkeys : ∀ k ∈ ["identifier", "role", "verkey"], data.get k = data'.get k := by
      intro k hk
      have hk' := congrArg (Json.get k) hvalue
      simp only [mem_cons, not_mem_nil, or_false] at hk
      rcases hk with rfl | rfl | rfl
      · rwa [get_put_of_ne (by decide), get_put_of_ne (by decide),
          get_put_self hbase, get_put_of_ne (by decide), get_put_of_ne (by decide),
          get_put_self hbase'] at hk'
      · rwa [get_put_of_ne (by decide), get_put_self (isObject_put hbase),
          get_put_of_ne (by decide), get_put_self (isObject_put hbase')] at hk'
      · rwa [get_put_self (isObject_put (isObject_put hbase)),
          get_put_self (isObject_put (isObject_put hbase'))] at hk'
    obtain ⟨d, rfl⟩ := data_isValue h
    obtain ⟨d', rfl⟩ := data_isValue h'
    exact eq_of_forget hforget hkeys

theorem attr_data_eq (h : parseData crates j.toValue = some (text, data))
    (h' : parseData crates j'.toValue = some (text', data'))
    (hno : NoCollision crates world world' getAttr j.toValue j'.toValue text text' data data')
    (hvalues : text.bind (fun t => provenValue crates j.toValue t data getAttr) =
      text'.bind (fun t => provenValue crates j'.toValue t data' getAttr)) : data = data' := by
  rcases texts_of_values (fun t => by rw [provenValue_attr]; exact some_ne_none _)
      (fun t => by rw [provenValue_attr]; exact some_ne_none _) hvalues with
    ⟨rfl, rfl⟩ | ⟨t, t', rfl, rfl, hvalue⟩
  · rw [data_eq_null h, data_eq_null h']
  · rw [provenValue_attr, provenValue_attr, some_inj] at hvalue
    have hval := congrArg (Json.get "val") hvalue
    rw [get_put_self (isObject_valueBase _ _), get_put_self (isObject_valueBase _ _),
      Json.str.injEq] at hval
    have ht := hno.texts t rfl t' rfl (toHex_injective hval)
    rw [← ht] at h'
    exact data_eq_of_text hno.readsBack h h'

theorem whole_data_eq (h : parseData crates j.toValue = some (text, data))
    (h' : parseData crates j'.toValue = some (text', data'))
    (htype : type = getCredDef ∨ type = getRevocRegDef ∨ type = getRevocReg)
    (hvalues : text.bind (fun t => provenValue crates j.toValue t data type) =
      text'.bind (fun t => provenValue crates j'.toValue t data' type)) : data = data' := by
  rcases texts_of_values (fun t => by rw [provenValue_whole t htype]; exact some_ne_none _)
      (fun t => by rw [provenValue_whole t htype]; exact some_ne_none _) hvalues with
    ⟨rfl, rfl⟩ | ⟨t, t', rfl, rfl, hvalue⟩
  · rw [data_eq_null h, data_eq_null h']
  · rw [provenValue_whole t htype, provenValue_whole t' htype, some_inj] at hvalue
    have hval := congrArg (Json.get "val") hvalue
    rwa [get_put_self (isObject_valueBase _ _), get_put_self (isObject_valueBase _ _)]
      at hval

theorem filtered_eq_of_values {base base' : Json} (hbase : base.isObject = true)
    (hbase' : base'.isObject = true) {map map' : List (String × Json)}
    (hvalue : (match map with
      | [] => none
      | map => some (base.put "val" (.obj map))) =
      match map' with
      | [] => none
      | map => some (base'.put "val" (.obj map))) : map = map' := by
  cases map with
  | nil =>
    cases map' with
    | nil => rfl
    | cons m' map' => cases hvalue
  | cons m map =>
    cases map' with
    | nil => cases hvalue
    | cons m' map' =>
      have hval := congrArg (Json.get "val") (Option.some.inj hvalue)
      rw [get_put_self hbase, get_put_self hbase', Json.obj.injEq] at hval
      exact hval

theorem schema_named (h : builtinKey crates world getSchema jsonMsg data = some key) :
    ∃ name version, data.get "name" = .str name ∧ data.get "version" = .str version := by
  obtain ⟨suffix, front, hsuffix, -, -⟩ := builtinKey_some h
  rw [keySuffix, if_neg (by decide), if_neg (by decide), if_neg (by decide), if_pos rfl] at hsuffix
  obtain ⟨name, hname, hsuffix⟩ := bind_eq_some_iff.mp hsuffix
  obtain ⟨version, hversion, -⟩ := bind_eq_some_iff.mp hsuffix
  exact ⟨name, version, asStr_eq_some.mp hname, asStr_eq_some.mp hversion⟩

theorem member?_of_get {k v : String} {members : List (String × Json)}
    (h : (Json.obj members).get k = .str v) : Json.member? k members = some (.str v) := by
  rw [Json.get] at h
  cases hm : Json.member? k members with
  | none =>
    rw [hm] at h
    cases h
  | some value =>
    rw [hm] at h
    rw [← h]
    rfl

theorem schema_data_eq (h : parseData crates j.toValue = some (text, data))
    (h' : parseData crates j'.toValue = some (text', data'))
    (hnamed : builtinKey crates world getSchema j.toValue data = some key)
    (hnamed' : builtinKey crates world' getSchema j'.toValue data' = some key)
    (hvalues : text.bind (fun t => provenValue crates j.toValue t data getSchema) =
      text'.bind (fun t => provenValue crates j'.toValue t data' getSchema))
    (hrest : unproven getSchema data = unproven getSchema data') : data = data' := by
  obtain ⟨name, version, hname, hversion⟩ := schema_named hnamed
  obtain ⟨name', version', hname', hversion'⟩ := schema_named hnamed'
  have hnotnull : ∀ {d : Json} {n : String}, d.get "name" = .str n → d ≠ .null := by
    rintro d n hn rfl
    cases hn
  have hrest' : name = name' ∧ version = version' := by
    have hr : Json.arr [data.get "name", data.get "version"] =
        .arr [data'.get "name", data'.get "version"] := hrest
    rw [hname, hversion, hname', hversion'] at hr
    simpa using hr
  obtain ⟨members, rfl⟩ : ∃ members, data = .obj members :=
    exists_obj_of_get_ne_null (by rw [hname]; exact Json.noConfusion)
  obtain ⟨members', rfl⟩ : ∃ members, data' = .obj members :=
    exists_obj_of_get_ne_null (by rw [hname']; exact Json.noConfusion)
  obtain ⟨d, hd⟩ := data_isValue h
  obtain ⟨d', hd'⟩ := data_isValue h'
  cases text with
  | none => exact absurd (data_eq_null h) (hnotnull hname)
  | some t =>
    cases text' with
    | none => exact absurd (data_eq_null h') (hnotnull hname')
    | some t' =>
      rw [bind_some, bind_some, provenValue_schema, provenValue_schema] at hvalues
      have hfiltered := filtered_eq_of_values (isObject_valueBase _ _) (isObject_valueBase _ _)
        hvalues
      rw [eq_of_sorted (sorted_of_toValue hd.symm) (sorted_of_toValue hd'.symm) ?_]
      intro k
      by_cases hk : k = "name"
      · rw [hk, member?_of_get hname, member?_of_get hname', hrest'.1]
      · by_cases hv : k = "version"
        · rw [hv, member?_of_get hversion, member?_of_get hversion', hrest'.2]
        · have hmember := congrArg (Json.member? k) hfiltered
          rwa [member?_filter_ne, member?_filter_ne, if_neg hv, if_neg hk,
            member?_filter_ne, member?_filter_ne, if_neg hv, if_neg hk] at hmember

theorem delta_named (h : builtinKey crates world getRevocRegDelta jsonMsg data = some key)
    (h' : builtinKey crates world' getRevocRegDelta jsonMsg' data' = some key) :
    data.get "revocRegDefId" = data'.get "revocRegDefId" := by
  have hread : ∀ {w : World} {m d : Json},
      builtinKey crates w getRevocRegDelta m d = some key → ∃ c id,
        d.get "revocRegDefId" = .str id ∧
          key = ofText (String.singleton c ++ ":" ++ id) := by
    intro w m d hd
    obtain ⟨suffix, front, hsuffix, hfront, hkey⟩ := builtinKey_some hd
    rw [keySuffix, if_neg (by decide), if_neg (by decide), if_neg (by decide), if_neg (by decide),
      if_neg (by decide)] at hsuffix
    split_ifs at hsuffix
    obtain ⟨id, hid, hsuffix⟩ := bind_eq_some_iff.mp hsuffix
    rw [keyPrefix, if_neg (by decide), if_pos (.inr rfl)] at hfront
    refine ⟨if w.isNode13 then '\x05' else '5', id, asStr_eq_some.mp hid, ?_⟩
    rw [hkey, ← Option.some.inj hfront, ← Option.some.inj hsuffix]
    rfl
  obtain ⟨c, id, hid, hkey⟩ := hread h
  obtain ⟨c', id', hid', hkey'⟩ := hread h'
  have htext := congrArg String.toList (ofText_injective (hkey.symm.trans hkey'))
  have hsame : id = id' := by
    apply String.toList_inj.mp
    simpa using (List.cons.inj (by simpa using htext)).2
  rw [hid, hid', hsame]

theorem delta_data_eq (h : parseData crates j.toValue = some (text, data))
    (h' : parseData crates j'.toValue = some (text', data'))
    (hnamed : builtinKey crates world getRevocRegDelta j.toValue data = some key)
    (hnamed' : builtinKey crates world' getRevocRegDelta j'.toValue data' = some key)
    (hvalues : text.bind (fun t => provenValue crates j.toValue t data getRevocRegDelta) =
      text'.bind (fun t => provenValue crates j'.toValue t data' getRevocRegDelta))
    (hrest : unproven getRevocRegDelta data = unproven getRevocRegDelta data') : data = data' := by
  have hid := delta_named hnamed hnamed'
  rcases texts_of_values (fun t => by rw [provenValue_delta]; exact some_ne_none _)
      (fun t => by rw [provenValue_delta]; exact some_ne_none _) hvalues with
    ⟨rfl, rfl⟩ | ⟨t, t', rfl, rfl, hvalue⟩
  · rw [data_eq_null h, data_eq_null h']
  · rw [provenValue_delta, provenValue_delta, some_inj] at hvalue
    have hval := congrArg (Json.get "val") hvalue
    rw [get_put_self (isObject_valueBase _ _), get_put_self (isObject_valueBase _ _)]
      at hval
    have hparts : data.forget ["revocRegDefId", "value"] =
          data'.forget ["revocRegDefId", "value"] ∧
        (data.get "value").forget ["accum_to"] = (data'.get "value").forget ["accum_to"] := by
      have hr : Json.arr [data.forget ["revocRegDefId", "value"],
          (data.get "value").forget ["accum_to"]] =
          .arr [data'.forget ["revocRegDefId", "value"],
            (data'.get "value").forget ["accum_to"]] := hrest
      simpa using hr
    obtain ⟨d, rfl⟩ := data_isValue h
    obtain ⟨d', rfl⟩ := data_isValue h'
    have hinner : d.toValue.get "value" = d'.toValue.get "value" := by
      obtain ⟨v, hv⟩ := exists_get_toValue "value" d
      obtain ⟨v', hv'⟩ := exists_get_toValue "value" d'
      rw [hv, hv'] at hparts hval ⊢
      refine eq_of_forget hparts.2 ?_
      intro k hk
      rw [mem_singleton.mp hk]
      exact hval
    refine eq_of_forget hparts.1 ?_
    intro k hk
    simp only [mem_cons, not_mem_nil, or_false] at hk
    rcases hk with rfl | rfl
    · exact hid
    · exact hinner

/-- Two replies accepted for one key under one root come with the same data exactly when what the
trie holds no value for is the same in both. -/
theorem data_eq_iff_unproven
    (h : AcceptedData crates world nodes f gen type j.toValue text data key rootHash)
    (h' : AcceptedData crates world' nodes' f' gen' type j'.toValue text' data' key rootHash)
    (hno : NoCollision crates world world' type j.toValue j'.toValue text text' data data') :
    data = data' ↔ unproven type data = unproven type data' := by
  constructor
  · rintro rfl
    rfl
  · intro hrest
    have hvalues := values_eq h h' hno
    obtain ⟨suffix, front, hsuffix, -, -⟩ := builtinKey_some h.named
    rcases type_of_keySuffix hsuffix with rfl | rfl | hwhole | rfl | rfl
    · exact nym_data_eq h.parsed h'.parsed hvalues hrest
    · exact attr_data_eq h.parsed h'.parsed hno hvalues
    · exact whole_data_eq h.parsed h'.parsed hwhole hvalues
    · exact schema_data_eq h.parsed h'.parsed h.named h'.named hvalues hrest
    · exact delta_data_eq h.parsed h'.parsed h.named h'.named hvalues hrest

end

/-- The trie of one identity, with the digests and encodings that the libraries give. -/
def nymDid : String := "V4SGRU86Z58d6TV7PBUe6f"

def stewardDid : String := "Th7MpTaRZVRYnPiabds81Y"

def nymKey : Bytes :=
  ofNat 32 0x59bded2fdacb09a36168bb9e2137e9017397b8f298df1a6db3b2053b67ffdc82

def nymKeyText : String := "Wb3tL9rLCaNhaLueITfpAXOXuPKY3xpts7IFO2f/3II="

def nymRoot : Bytes :=
  ofNat 32 0x5a15ba4bba5ce004a4bc86a4450f41bc7b2acafafa4ff58d7e121a23b7f0b2a7

def nymRootText : String := "74euiYnCX8rrxPTXxhdb2xyh9KfrB4C5jHkuu9R1aurN"

def nymValueText : String := (Json.obj [("identifier", .str stewardDid),
  ("role", .str "101"), ("seqNo", .int 11), ("txnTime", .int 1536151200),
  ("verkey", .str "~CoRER63DVYnWZtK8uAzNbx")]).text

def nymPath : Bytes := 0x20 :: nymKey

def nymInner : Bytes := [0xb8, 0x77] ++ ofText nymValueText

def nymValue : Bytes := [0xf8, 0x79] ++ nymInner

def nymPathRlp : Bytes := 0xa1 :: nymPath

def nymValueRlp : Bytes := [0xb8, 0x7b] ++ nymValue

def nymLeaf : Bytes := [0xf8, 0x9f] ++ nymPathRlp ++ nymValueRlp

def nymProof : Bytes := [0xf8, 0xa1] ++ nymLeaf

def nymProofText : String :=
  "+KH4n6EgWb3tL9rLCaNhaLueITfpAXOXuPKY3xpts7IFO2f/3IK4e/h5uHd7ImlkZW50aWZpZXIiOiJUaDdNcFRhUlpWUlluU" ++
  "GlhYmRzODFZIiwicm9sZSI6IjEwMSIsInNlcU5vIjoxMSwidHhuVGltZSI6MTUzNjE1MTIwMCwidmVya2V5IjoifkNvUkVSNj" ++
  "NEVlluV1p0Szh1QXpOYngifQ=="

/-- The value that the pool signed at a time. -/
def signedValue (timestamp : ℕ) : Json :=
  .obj [("state_root_hash", .str nymRootText), ("timestamp", .int timestamp)]

def signedBytes : Bytes :=
  [0x82, 0xaf] ++ ofText "state_root_hash" ++ [0xd9, 0x2c] ++ ofText nymRootText ++
    [0xa9] ++ ofText "timestamp" ++ [0xce, 0x5b, 0x8f, 0xce, 0xc8]

def poolSignature : Bytes := [0x2a]

def signers : Json := .arr [.str "Node1", .str "Node2", .str "Node3"]

def poolKeys : List VerKey := [[0x01], [0x02], [0x03]]

def fourPoolNodes : Nodes :=
  [⟨"Node1", some [0x01]⟩, ⟨"Node2", some [0x02]⟩, ⟨"Node3", some [0x03]⟩,
    ⟨"Node4", some [0x04]⟩].toAList

def nymRlp : Rlp where
  prototype b := if b = nymLeaf then some (.list 2) else none
  item b i := if b = nymLeaf then [nymPathRlp, nymValueRlp][i]? else none
  asVal b := List.lookup b [(nymPathRlp, nymPath), (nymValueRlp, nymValue),
    (nymInner, ofText nymValueText)]
  isEmpty _ := false
  iter b := (List.lookup b [(nymProof, [nymLeaf]), (nymValue, [nymInner])]).getD []
  encode
    | .list [.data path, .data value] => if path = nymPath ∧ value = nymValue then nymLeaf else []
    | _ => []

/-- The data of a reply, which names an identity on its own account. -/
def nymData (dest : String) : Json := .obj [("dest", .str dest),
  ("identifier", .str stewardDid), ("role", .str "101"), ("seqNo", .int 11),
  ("txnTime", .int 1536151200), ("verkey", .str "~CoRER63DVYnWZtK8uAzNbx")]

def nymResult (dest : String) : Json := .obj [("data", nymData dest),
  ("dest", .str nymDid), ("identifier", .str stewardDid), ("reqId", .int 1),
  ("seqNo", .int 11), ("state_proof", .obj [("multi_signature", .obj [
      ("participants", signers), ("signature", .str "j"), ("value", signedValue 1536151240)]),
    ("proof_nodes", .str nymProofText), ("root_hash", .str nymRootText)]),
  ("txnTime", .int 1536151200), ("type", .str getNym)]

/-- The message of a node with a result. -/
def nymReply (result : Json) : Json := .obj [("op", .str "REPLY"), ("result", result)]

def nymRawReply : String := (nymReply (nymResult nymDid)).text

def nymCrates : Crates :=
  { Crates.none with
    sha256 := fun b => (List.lookup b [(ofText nymDid, nymKey),
      (ofText stewardDid,
        ofNat 32 0xd9bedd649e96ace94b42aebb00561811b5ce156a3922855198f7af4fb5f2f277),
      (ofText (nymData nymDid).text,
        ofNat 32 0xe205492ed63d95b99896c2afc20258bf3e5ff1cdb6914c159eab9f411b041121),
      (ofText (nymData stewardDid).text,
        ofNat 32 0x1d28817cb9c40ab7d8bdcd207e0545c2457f71e01d4888f8bc9151a4b0578f31)]).getD []
    sha3 := fun b => if b = nymLeaf then nymRoot else []
    rlp := nymRlp
    fromBase58 := fun s => List.lookup s [(nymRootText, nymRoot), ("j", poolSignature)]
    base64Encode := fun b => if b = nymKey then nymKeyText else ""
    base64Decode := fun s => List.lookup s [(nymKeyText, nymKey), (nymProofText, nymProof)]
    fromStr := fun s =>
      if s = nymRawReply then some (nymReply (nymResult nymDid))
      else List.lookup s [((nymData nymDid).text, nymData nymDid),
        ((nymData stewardDid).text, nymData stewardDid)]
    toStr := Json.text
    toVecNamed := fun j => if j = signedValue 1536151240 then some signedBytes else none
    multiSignatureFromBytes := some
    verifyMultiSig := fun signature value verKeys _ =>
      some (signature = poolSignature ∧ value = signedBytes ∧ verKeys = poolKeys) }

def nymProven : ParsedSP where
  proofNodes := nymProofText
  rootHash := nymRootText
  kvsToVerify := .simple ⟨[(nymKeyText, some nymValueText)]⟩
  multiSignature := .obj [("participants", signers), ("signature", .str "j"),
    ("value", signedValue 1536151240)]

theorem nymProven_verified : verifyParsedSp nymCrates (World.at 1536151300) fourPoolNodes 1 []
    [nymProven] = .ok true := by
  decide +kernel

theorem nymResult_accepted (dest : String) (hdest : dest ∈ [nymDid, stewardDid]) :
    AcceptedData nymCrates (World.at 1536151300) fourPoolNodes 1 [] getNym (nymResult dest).toValue
      (some (nymData dest).text) (nymData dest).toValue nymKey nymRootText := by
  rw [mem_cons, mem_singleton] at hdest
  refine ⟨⟨[nymProven], ?_, nymProven_verified⟩, ?_, ?_, ?_⟩
  · rcases hdest with rfl | rfl <;> rfl
  · rcases hdest with rfl | rfl <;> rfl
  · rcases hdest with rfl | rfl <;> decide +kernel
  · rcases hdest with rfl | rfl <;> decide +kernel

theorem nymProof_apart {proof proof' : List Node}
    (h : proofNodes nymCrates (World.at 1536151300) nymProof = .ok proof)
    (h' : proofNodes nymCrates (World.at 1536151300) nymProof = .ok proof') :
    HashesApart nymCrates proof proof' := by
  have hsame : proof = proof' := Outcome.ok.inj (h.symm.trans h')
  have hlength : proof.length ≤ 1 := by
    rcases Outcome.unwrapOr_eq_ok_iff.mp h with hok | ⟨-, rfl⟩
    · have hlen := congrArg List.length (Outcome.mapM_eq_ok_iff.mp hok)
      rw [length_map, length_map] at hlen
      rw [← hlen]
      decide +kernel
    · exact Nat.zero_le _
  subst hsame
  intro node hnode node' hnode' _
  obtain ⟨i, hi, rfl⟩ := getElem_of_mem hnode
  obtain ⟨i', hi', rfl⟩ := getElem_of_mem hnode'
  have hindex : i = i' := by omega
  subst hindex
  rfl

/-- What the check of two proofs relies on: the digest keeps the encodings of their nodes apart, the
encoder keeps different nodes apart, and no bytes at all are no list of values. -/
structure NodesApart (crates : Crates) (world world' : World) (proofsRlp proofsRlp' : Bytes) :
    Prop where
  emptyList : crates.rlp.iter [] = []
  digests : ∀ proof proof', proofNodes crates world proofsRlp = .ok proof →
    proofNodes crates world' proofsRlp' = .ok proof' → ∀ node ∈ proof, ∀ node' ∈ proof',
      crates.sha3 (crates.rlp.encode node.toItem) = crates.sha3 (crates.rlp.encode node'.toItem) →
      crates.rlp.encode node.toItem = crates.rlp.encode node'.toItem
  encodings : ∀ proof proof', proofNodes crates world proofsRlp = .ok proof →
    proofNodes crates world' proofsRlp' = .ok proof' → ∀ node ∈ proof, ∀ node' ∈ proof',
      crates.rlp.encode node.toItem = crates.rlp.encode node'.toItem → node.toItem = node'.toItem

/-- Whatever the nodes of two accepted proofs are, one key under one root has one value or none. -/
theorem verifiedValue_unique {proofsRlp proofsRlp' rootHash key : Bytes}
    {value value' : Option String} (hapart : NodesApart crates world world' proofsRlp proofsRlp')
    (h : verifyProof crates world proofsRlp rootHash key value = .ok true)
    (h' : verifyProof crates world' proofsRlp' rootHash key value' = .ok true) :
    value = value' := by
  refine (verifyProof_ok h).unique hapart.emptyList ?_ (verifyProof_ok h')
  intro proof proof' hproof hproof' node hnode node' hnode' hhash
  exact hapart.encodings proof proof' hproof hproof' node hnode node' hnode'
    (hapart.digests proof proof' hproof hproof' node hnode node' hnode' hhash)

theorem verifiedValue_unique_nym :
    verifyProof nymCrates (World.at 1536151300) nymProof nymRoot nymKey (some nymValueText) =
        .ok true ∧
      verifyProof nymCrates (World.at 1536151300) nymProof nymRoot nymKey none ≠ .ok true := by
  have hshown : verifyProof nymCrates (World.at 1536151300) nymProof nymRoot nymKey
      (some nymValueText) = .ok true := by decide +kernel
  have hapart : NodesApart nymCrates (World.at 1536151300) (World.at 1536151300) nymProof
      nymProof := by
    refine ⟨by decide +kernel, ?_, ?_⟩
    · intro proof proof' hproof hproof' node hnode node' hnode' hsame
      rw [nymProof_apart hproof hproof' node hnode node' hnode' hsame]
    · intro proof proof' hproof hproof' node hnode node' hnode' hsame
      exact nymProof_apart hproof hproof' node hnode node' hnode' (congrArg nymCrates.sha3 hsame)
  refine ⟨hshown, fun habsent => ?_⟩
  cases verifiedValue_unique hapart hshown habsent

theorem nymReplies_noCollision : NoCollision nymCrates (World.at 1536151300) (World.at 1536151300)
    getNym (nymResult nymDid).toValue (nymResult stewardDid).toValue
    (some (nymData nymDid).text) (some (nymData stewardDid).text)
    (nymData nymDid).toValue (nymData stewardDid).toValue where
  emptyList := by rfl
  nodes := by
    intro proofsRlp proofsRlp' proof proof' hrlp hproof hrlp' hproof'
    have hread : ∀ dest ∈ [nymDid, stewardDid],
        ((((nymResult dest).toValue.get "state_proof").get "proof_nodes").asStr.bind
          nymCrates.base64Decode) = some nymProof := by decide +kernel
    rw [hread nymDid mem_cons_self, some_inj] at hrlp
    rw [hread stewardDid (mem_cons_of_mem _ mem_cons_self), some_inj] at hrlp'
    rw [← hrlp] at hproof
    rw [← hrlp'] at hproof'
    exact nymProof_apart hproof hproof'
  texts := by decide +kernel
  values := by decide +kernel
  readsBack := by decide +kernel

theorem nymReplies_data_iff : (nymData nymDid).toValue = (nymData stewardDid).toValue ↔
    unproven getNym (nymData nymDid).toValue = unproven getNym (nymData stewardDid).toValue :=
  data_eq_iff_unproven (nymResult_accepted nymDid mem_cons_self)
    (nymResult_accepted stewardDid (mem_cons_of_mem _ mem_cons_self))
    nymReplies_noCollision

/-- Two replies for one key under one root, whose data name different identities. -/
theorem nymReplies_data_ne :
    AcceptedData nymCrates (World.at 1536151300) fourPoolNodes 1 [] getNym
        (nymResult nymDid).toValue (some (nymData nymDid).text) (nymData nymDid).toValue
        nymKey nymRootText ∧
      AcceptedData nymCrates (World.at 1536151300) fourPoolNodes 1 [] getNym
        (nymResult stewardDid).toValue (some (nymData stewardDid).text)
        (nymData stewardDid).toValue nymKey nymRootText ∧
      (nymData nymDid).toValue ≠ (nymData stewardDid).toValue :=
  ⟨nymResult_accepted nymDid mem_cons_self,
    nymResult_accepted stewardDid (mem_cons_of_mem _ mem_cons_self), by decide +kernel⟩

end IndySdk.Pool.StateProof
