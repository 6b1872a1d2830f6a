import IndySdk.StateProof

/-!
# What an accepted state proof shows

Each accepted proof carries a signature of the pool over a value with its root, and a walk from this
root for each of its keys. Two accepted proofs for one key under one root show one value.
-/

namespace IndySdk.Pool.StateProof

variable {crates : Crates} {world world' : World} {nodes : Nodes} {f : ℕ} {gen : Generator}

/-- The value under the key in the trie of the root, as the nodes of a proof show it. -/
def Shows (crates : Crates) (world : World) (proofsRlp rootHash key : Bytes)
    (value : Option String) : Prop :=
  ∃ proof root, proofNodes crates world proofsRlp = .ok proof ∧
    (trieDB crates proof).lookup rootHash = some root ∧
    root.getStrValue crates.rlp (trieDB crates proof) world.stackDepth key = .ok value

variable {proofsRlp rootHash : Bytes}

theorem verifyProof_ok {key : Bytes} {value : Option String}
    (h : verifyProof crates world proofsRlp rootHash key value = .ok true) :
    Shows crates world proofsRlp rootHash key value := by
  obtain ⟨proof, hproof, h⟩ := Outcome.bind_eq_ok_iff.mp h
  cases hroot : (trieDB crates proof).lookup rootHash with
  | none =>
    simp only [hroot] at h
    cases h
  | some root =>
    simp only [hroot] at h
    refine ⟨proof, root, hproof, hroot, ?_⟩
    rcases Outcome.unwrapOr_eq_ok_iff.mp h with hread | ⟨-, hfalse⟩
    · obtain ⟨read, hok, heq⟩ := Outcome.map_eq_ok_iff.mp hread
      rw [hok, of_decide_eq_true heq]
    · cases hfalse

theorem verifyKvs_ok {kvs : List (String × Option String)}
    (h : verifyKvs crates world proofsRlp rootHash kvs = .ok true) :
    ∀ kv ∈ kvs, ∃ key, crates.base64Decode kv.1 = some key ∧
      Shows crates world proofsRlp rootHash key kv.2 := by
  induction kvs with
  | nil => exact fun kv hkv => absurd hkv List.not_mem_nil
  | cons kv kvs ih =>
    obtain ⟨k, v⟩ := kv
    rw [verifyKvs] at h
    cases hkey : crates.base64Decode k with
    | none =>
      rw [hkey] at h
      cases h
    | some key =>
      rw [hkey] at h
      obtain ⟨proved, hproved, h⟩ := Outcome.bind_eq_ok_iff.mp h
      cases proved with
      | false => cases h
      | true =>
        intro kv' hkv'
        rcases List.mem_cons.mp hkv' with rfl | hkv'
        · exact ⟨key, hkey, verifyProof_ok hproved⟩
        · exact ih h kv' hkv'

/-- The multi-signature is one of enough nodes over its value, which names the root. -/
structure Signed (crates : Crates) (world : World) (nodes : Nodes) (f : ℕ) (gen : Generator)
    (multiSignature : Json) (rootHash : String) : Prop where
  root : ((multiSignature.get "value").get "state_root_hash").asStr = some rootHash
  verified : ∃ signature participants value,
    parseReplyForProofSignatureChecking crates multiSignature =
      some (signature, participants, value) ∧
    verifyProofSignature crates world signature participants value nodes f gen = .ok true

/-- What acceptance of one proof shows: a signed root, and every key walked from it. -/
structure Accepted (crates : Crates) (world : World) (nodes : Nodes) (f : ℕ) (gen : Generator)
    (sp : ParsedSP) : Prop where
  signed : Signed crates world nodes f gen sp.multiSignature sp.rootHash
  shown : ∃ proofsRlp rootHash data, crates.base64Decode sp.proofNodes = some proofsRlp ∧
    crates.fromBase58 sp.rootHash = some rootHash ∧ sp.kvsToVerify = .simple data ∧
    ∀ kv ∈ data.kvs, ∃ key, crates.base64Decode kv.1 = some key ∧
      Shows crates world proofsRlp rootHash key kv.2

theorem verifySp_ok {sp : ParsedSP} (h : verifySp crates world nodes f gen sp = .ok true) :
    Accepted crates world nodes f gen sp := by
  rw [verifySp] at h
  split_ifs at h with hroot
  · cases h
  · rw [not_not] at hroot
    cases hparse : parseReplyForProofSignatureChecking crates sp.multiSignature with
    | none =>
      rw [hparse] at h
      cases h
    | some parsed =>
      obtain ⟨signature, participants, value⟩ := parsed
      rw [hparse] at h
      obtain ⟨verified, hverified, h⟩ := Outcome.bind_eq_ok_iff.mp h
      cases verified with
      | false => cases h
      | true =>
        have hsignature : verifyProofSignature crates world signature participants value nodes f
            gen = .ok true := by
          rcases Outcome.unwrapOr_eq_ok_iff.mp hverified with hok | ⟨-, hfalse⟩
          · exact hok
          · cases hfalse
        refine ⟨⟨hroot, signature, participants, value, hparse, hsignature⟩, ?_⟩
        simp only [if_true] at h
        split at h
        · rename_i proofsRlp rootHash hproofs hrootHash
          split at h
          · rename_i data hdata
            exact ⟨proofsRlp, rootHash, data, hproofs, hrootHash, hdata, verifyKvs_ok h⟩
          · cases h
        · cases h

theorem verifyParsedSp_ok {sps : List ParsedSP}
    (h : verifyParsedSp crates world nodes f gen sps = .ok true) :
    ∀ sp ∈ sps, Accepted crates world nodes f gen sp := by
  induction sps with
  | nil => exact fun sp hsp => absurd hsp List.not_mem_nil
  | cons sp sps ih =>
    obtain ⟨verified, hverified, h⟩ := Outcome.bind_eq_ok_iff.mp h
    cases verified with
    | false => cases h
    | true =>
      intro sp' hsp'
      rcases List.mem_cons.mp hsp' with rfl | hsp'
      · exact verifySp_ok hverified
      · exact ih h sp' hsp'

/-- Nodes of both proofs that share a hash share their encoding. -/
def HashesApart (crates : Crates) (proof proof' : List Node) : Prop :=
  ∀ node ∈ proof, ∀ node' ∈ proof', nodeHash crates node = nodeHash crates node' →
    node.toItem = node'.toItem

theorem lookup_trieDB {proof : List Node} {digest : Bytes} {node : Node}
    (h : (trieDB crates proof).lookup digest = some node) :
    node ∈ proof ∧ nodeHash crates node = digest := by
  have hfold : ∀ (l : List Node) (db : Node.TrieDB),
      (l.foldl (fun map node => map.insert (nodeHash crates node) node) db).lookup digest =
        some node → db.lookup digest = some node ∨ (node ∈ l ∧ nodeHash crates node = digest) := by
    intro l
    induction l with
    | nil => exact fun db hdb => .inl hdb
    | cons x l ih =>
      intro db hdb
      rcases ih _ hdb with hold | ⟨hmem, hhash⟩
      · by_cases hx : digest = nodeHash crates x
        · rw [hx, AList.lookup_insert] at hold
          cases hold
          exact .inr ⟨List.mem_cons_self, hx.symm⟩
        · rw [AList.lookup_insert_ne hx] at hold
          exact .inl hold
      · exact .inr ⟨List.mem_cons_of_mem _ hmem, hhash⟩
  rcases hfold proof ∅ h with hnone | hmem
  · rw [AList.lookup_empty] at hnone
    cases hnone
  · exact hmem

theorem agree_of_hashesApart {proof proof' : List Node} (h : HashesApart crates proof proof') :
    Node.Agree (trieDB crates proof) (trieDB crates proof') := by
  intro digest node node' hnode hnode'
  obtain ⟨hmem, hhash⟩ := lookup_trieDB hnode
  obtain ⟨hmem', hhash'⟩ := lookup_trieDB hnode'
  exact h node hmem node' hmem' (hhash.trans hhash'.symm)

theorem Shows.unique {proofsRlp' key : Bytes} {value value' : Option String}
    (hiter : crates.rlp.iter [] = [])
    (hapart : ∀ proof proof', proofNodes crates world proofsRlp = .ok proof →
      proofNodes crates world' proofsRlp' = .ok proof' → HashesApart crates proof proof')
    (h : Shows crates world proofsRlp rootHash key value)
    (h' : Shows crates world' proofsRlp' rootHash key value') : value = value' := by
  obtain ⟨proof, root, hproof, hroot, hread⟩ := h
  obtain ⟨proof', root', hproof', hroot', hread'⟩ := h'
  have hagree := agree_of_hashesApart (hapart proof proof' hproof hproof')
  exact Node.getStrValue_agree hiter hagree (hagree rootHash root root' hroot hroot') hread hread'

/-- The parts that the proof of a built-in reply is made of. -/
structure BuiltinParts (crates : Crates) (world : World) (jsonMsg : Json) (type : String)
    (sps : List ParsedSP) where
  proof : String
  rootHash : String
  data : Option String
  parsedData : Json
  suffix : String
  front : Bytes
  value : Option String
  hproof : ((jsonMsg.get "state_proof").get "proof_nodes").asStr = some proof
  hrootHash : ((jsonMsg.get "state_proof").get "root_hash").asStr = some rootHash
  hdata : parseData crates jsonMsg = some (data, parsedData)
  hsuffix : keySuffix crates world type jsonMsg parsedData = some suffix
  hfront : keyPrefix crates type jsonMsg = some front
  hvalue : parseReplyForProofValue crates jsonMsg data parsedData type = .ok value
  hsps : sps = [{
    proofNodes := proof
    rootHash := rootHash
    kvsToVerify := .simple ⟨[(crates.base64Encode (front ++ Bytes.ofText suffix), value)]⟩
    multiSignature := (jsonMsg.get "state_proof").get "multi_signature" }]

theorem parseReplyForBuiltinSp_some {jsonMsg : Json} {type : String} {sps : List ParsedSP}
    (h : parseReplyForBuiltinSp crates world jsonMsg type = some sps) :
    Nonempty (BuiltinParts crates world jsonMsg type sps) := by
  obtain ⟨proof, hproof, h⟩ := Option.bind_eq_some_iff.mp h
  obtain ⟨rootHash, hrootHash, h⟩ := Option.bind_eq_some_iff.mp h
  obtain ⟨⟨data, parsedData⟩, hdata, h⟩ := Option.bind_eq_some_iff.mp h
  obtain ⟨suffix, hsuffix, h⟩ := Option.bind_eq_some_iff.mp h
  obtain ⟨front, hfront, h⟩ := Option.bind_eq_some_iff.mp h
  cases hvalue : parseReplyForProofValue crates jsonMsg data parsedData type with
  | error e =>
    simp only [hvalue] at h
    cases h
  | ok value =>
    simp only [hvalue, Option.some.injEq] at h
    exact ⟨⟨proof, rootHash, data, parsedData, suffix, front, value, hproof, hrootHash, hdata,
      hsuffix, hfront, hvalue, h.symm⟩⟩

end IndySdk.Pool.StateProof
