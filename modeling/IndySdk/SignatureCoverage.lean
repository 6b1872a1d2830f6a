import IndySdk.StateProofChecks

/-!
# What the signatures of accepted state proofs cover

Every proof that is accepted names a root that stands in a value signed by enough nodes of the pool.
A list without any proof is accepted as well, though a parser is to name one proof or more.
-/

namespace IndySdk.Pool.StateProof

open Outcome List

variable {crates : Crates} {world : World} {nodes : Nodes} {f : ℕ} {gen : Generator}

/-- Distinct nodes of the pool that are among the participants, each with its own key, and at least
`n - f` of them. -/
structure Quorum (nodes : Nodes) (f : ℕ) (participants : List String)
    (signers : List (String × VerKey)) : Prop where
  distinct : (signers.map Prod.fst).Nodup
  own : ∀ signer ∈ signers, nodes.lookup signer.1 = some (some signer.2)
  participating : ∀ signer ∈ signers, signer.1 ∈ participants
  enough : nodes.keys.length - f ≤ signers.length

/-- A quorum of the pool signed the value of the multi-signature, in which the root of the proof
stands. -/
structure Covered (crates : Crates) (world : World) (nodes : Nodes) (f : ℕ) (gen : Generator)
    (sp : ParsedSP) : Prop where
  root : ((sp.multiSignature.get "value").get "state_root_hash").asStr = some sp.rootHash
  signed : ∃ value, crates.toVecNamed (sp.multiSignature.get "value") = some value ∧
    ∃ participants signers signature, Quorum nodes f participants signers ∧
      (sp.multiSignature.get "participants").asArray = some (participants.map Json.str) ∧
      crates.verifyMultiSig signature value (signers.map Prod.snd) gen = some true
  walked : ∃ proofsRlp rootHash data, crates.base64Decode sp.proofNodes = some proofsRlp ∧
    crates.fromBase58 sp.rootHash = some rootHash ∧ sp.kvsToVerify = .simple data ∧
    ∀ kv ∈ data.kvs, ∃ key, crates.base64Decode kv.1 = some key ∧
      Shows crates world proofsRlp rootHash key kv.2

theorem names_nodup (nodes : Nodes) : (nodes.toPairs.map Prod.fst).Nodup := by
  have hkeys : nodes.toPairs.map Prod.fst = nodes.keys := by
    rw [AssocMap.toPairs, map_map]
    rfl
  rw [hkeys]
  exact nodes.keys_nodup

variable {participants : List String}

/-- The keys are those of distinct nodes that participate. -/
theorem participantKeys_ok {verKeys : List VerKey}
    (h : participantKeys world participants nodes = .ok verKeys) :
    ∃ signers : List (String × VerKey), signers.map Prod.snd = verKeys ∧
      (signers.map Prod.fst).Nodup ∧
      ∀ signer ∈ signers, nodes.lookup signer.1 = some (some signer.2) ∧
        signer.1 ∈ participants := by
  rw [participantKeys, mapM_eq_ok_iff] at h
  let chosen := (world.order.order nodes.toPairs).filter (fun node => node.1 ∈ participants)
  have hkey : ∀ node ∈ chosen, node.2 = some (node.2.getD []) := by
    intro node hnode
    have hmem := mem_map_of_mem (f := fun node : String × Option VerKey =>
      (ofOption (errMsg .invalidState "Blskey not found for node: _" [node.1]) node.2 :
        IndyResult VerKey)) hnode
    rw [h] at hmem
    obtain ⟨key, -, hkey⟩ := mem_map.mp hmem
    rw [ofOption_eq_ok.mp hkey.symm]
    rfl
  refine ⟨chosen.map (fun node => (node.1, node.2.getD [])), ?_, ?_, ?_⟩
  · have hok : (chosen.map (fun node => node.2.getD [])).map
        (Outcome.ok : VerKey → IndyResult VerKey) = verKeys.map .ok := by
      rw [← h, map_map]
      refine map_congr_left (fun node hnode => ?_)
      rw [hkey node hnode]
      rfl
    rw [map_map]
    exact map_injective_iff.mpr (fun _ _ he => Outcome.ok.inj he) hok
  · rw [map_map]
    have hperm : ((world.order.order nodes.toPairs).map Prod.fst).Nodup :=
      ((world.order.perm nodes.toPairs).map Prod.fst).nodup_iff.mpr (names_nodup nodes)
    exact (filter_sublist.map Prod.fst).nodup hperm
  · intro signer hsigner
    obtain ⟨node, hnode, rfl⟩ := mem_map.mp hsigner
    obtain ⟨hin, hparticipates⟩ := mem_filter.mp hnode
    rw [world.order.mem_order] at hin
    refine ⟨?_, of_decide_eq_true hparticipates⟩
    rw [← hkey node hnode]
    exact AssocMap.mem_toPairs.mp hin

theorem quorum_of_length {signers : List (String × VerKey)} {needed : ℕ}
    (hdistinct : (signers.map Prod.fst).Nodup)
    (hsigners : ∀ signer ∈ signers, nodes.lookup signer.1 = some (some signer.2) ∧
      signer.1 ∈ participants)
    (hneeded : (wordSub 64 world.overflowChecks nodes.keys.length f : IndyResult ℕ) =
      .ok needed) (henough : needed ≤ signers.length) : Quorum nodes f participants signers := by
  refine ⟨hdistinct, fun signer hsigner => (hsigners signer hsigner).1,
    fun signer hsigner => (hsigners signer hsigner).2, ?_⟩
  by_cases hf : f ≤ nodes.keys.length
  · rw [wordSub_of_le hf] at hneeded
    cases hneeded
    exact henough
  · omega

theorem verifyProofSignature_ok {signature : String} {value : Bytes}
    (h : verifyProofSignature crates world signature participants value nodes f gen = .ok true) :
    ∃ signers signature, Quorum nodes f participants signers ∧
      crates.verifyMultiSig signature value (signers.map Prod.snd) gen = some true := by
  obtain ⟨verKeys, hkeys, h⟩ := bind_eq_ok_iff.mp h
  obtain ⟨needed, hneeded, h⟩ := bind_eq_ok_iff.mp h
  obtain ⟨signers, rfl, hdistinct, hsigners⟩ := participantKeys_ok hkeys
  by_cases hfew : (signers.map Prod.snd).length < needed
  · rw [if_pos hfew] at h
    cases h
  · rw [if_neg hfew] at h
    rw [length_map, not_lt] at hfew
    cases hsignature : (crates.fromBase58 signature).bind crates.multiSignatureFromBytes with
    | none =>
      rw [hsignature] at h
      cases h
    | some multiSignature =>
      rw [hsignature] at h
      refine ⟨signers, multiSignature, quorum_of_length hdistinct hsigners hneeded hfew, ?_⟩
      have hverified := Outcome.ok.inj h
      cases hresult : crates.verifyMultiSig multiSignature value (signers.map Prod.snd) gen with
      | none =>
        rw [hresult] at hverified
        cases hverified
      | some verified =>
        rw [hresult] at hverified
        exact congrArg some hverified

theorem eq_map_str {l : List Json} (h : l.length = (l.filterMap Json.asStr).length) :
    l = (l.filterMap Json.asStr).map Json.str := by
  induction l with
  | nil => rfl
  | cons j l ih =>
    cases hj : j.asStr with
    | none =>
      rw [filterMap_cons_none hj, length_cons] at h
      have hle := length_filterMap_le Json.asStr l
      omega
    | some s =>
      rw [filterMap_cons_some hj, length_cons, length_cons] at h
      rw [filterMap_cons_some hj, map_cons, ← ih (Nat.succ.inj h),
        Json.asStr_eq_some.mp hj]

theorem participants_ok {multiSignature : Json} {signature : String} {value : Bytes}
    (h : parseReplyForProofSignatureChecking crates multiSignature =
      some (signature, participants, value)) :
    (multiSignature.get "participants").asArray = some (participants.map Json.str) ∧
      crates.toVecNamed (multiSignature.get "value") = some value := by
  obtain ⟨signature', -, h⟩ := Option.bind_eq_some_iff.mp h
  obtain ⟨listed, hlisted, h⟩ := Option.bind_eq_some_iff.mp h
  obtain ⟨value', hvalue, h⟩ := Option.bind_eq_some_iff.mp h
  simp only at h
  split_ifs at h with hall
  cases h
  refine ⟨?_, hvalue⟩
  rw [hlisted, ← eq_map_str hall]

theorem covered_of_accepted {sp : ParsedSP} (h : Accepted crates world nodes f gen sp) :
    Covered crates world nodes f gen sp := by
  obtain ⟨signature, participants, value, hparse, hverified⟩ := h.signed.verified
  obtain ⟨hparticipants, hvalue⟩ := participants_ok hparse
  obtain ⟨signers, multiSignature, hquorum, hsigned⟩ := verifyProofSignature_ok hverified
  exact ⟨h.signed.root, ⟨value, hvalue, participants, signers, multiSignature, hquorum,
    hparticipants, hsigned⟩, h.shown⟩

/-- Accepted proofs are some proofs that are all covered, unless there is no proof at all. -/
theorem verifyParsedSp_covers_iff (crates : Crates) (world : World) (nodes : Nodes) (f : ℕ)
    (gen : Generator) (sps : List ParsedSP) :
    (verifyParsedSp crates world nodes f gen sps = .ok true →
      sps ≠ [] ∧ ∀ sp ∈ sps, Covered crates world nodes f gen sp) ↔ sps ≠ [] := by
  constructor
  · intro h hnil
    subst hnil
    exact (h rfl).1 rfl
  · intro hsome h
    exact ⟨hsome, fun sp hsp => covered_of_accepted (verifyParsedSp_ok h sp hsp)⟩

/-- No proof at all is accepted for any pool. -/
theorem no_proof_accepted :
    ¬ (verifyParsedSp Crates.none (World.at 0) [⟨"Node1", some [1]⟩].toAList 0 [] [] = .ok true →
      ([] : List ParsedSP) ≠ [] ∧ ∀ sp ∈ [],
        Covered Crates.none (World.at 0) [⟨"Node1", some [1]⟩].toAList 0 [] sp) := by
  intro h
  exact (h rfl).1 rfl

end IndySdk.Pool.StateProof
