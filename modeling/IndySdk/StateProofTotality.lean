import IndySdk.StateProofBinding
import IndySdk.StateProofDecoding

/-!
# Checking a proof to its end

The check of a proof decodes its nodes and walks from the root through references among them. With
references that have no cycle, the walk of decoded nodes ends; so the check ends with its answer,
unless decoding comes to a pair without a path.
-/

namespace IndySdk.Pool.StateProof

open Depth Outcome

namespace Node

/-- A digest stands somewhere inside the node. -/
inductive Refers : Node → Bytes → Prop where
  | hash (digest : Bytes) : Refers (.hash digest) digest
  | extension (path : Bytes) {next : Node} {digest : Bytes} (h : Refers next digest) :
    Refers (.extension path next) digest
  | full {nodes : Nibble → Option Node} (value : Option Bytes) {i : Nibble} {next : Node}
    {digest : Bytes} (hchild : nodes i = some next) (h : Refers next digest) :
    Refers (.full nodes value) digest

/-- The node under the first digest holds the second one. -/
def References (db : TrieDB) (digest next : Bytes) : Prop :=
  ∃ node, db.lookup digest = some node ∧ Refers node next

def Acyclic (db : TrieDB) : Prop := ∀ digest, ¬ Relation.TransGen (References db) digest digest

theorem parsePath_of_ne_nil {path : Bytes} (h : path ≠ []) :
    ∃ parsed, parsePath path = .ok parsed := by
  cases path with
  | nil => exact absurd rfl h
  | cons flags path => exact ⟨_, rfl⟩

variable {db : TrieDB} {rlp : Rlp}

/-- The walk of a node ends when the walks of the nodes it refers to do. -/
theorem WellFormed.walk_ends {node : Node} (hnode : WellFormed node)
    (hrefs : ∀ digest next, Refers node digest → db.lookup digest = some next →
      ∀ path, Ends (fun depth => getValueAt db depth next path)) (path : List Nibble) :
    Ends (fun depth => getValueAt db depth node path) := by
  induction hnode generalizing path with
  | @leaf pairPath value hpath =>
    obtain ⟨⟨isLeaf, nibbles⟩, hparse⟩ := parsePath_of_ne_nil hpath
    refine Ends.of_succ ?_
    simp only [getValueAt, hparse, ok_bind]
    cases isLeaf with
    | false => exact ends_err _
    | true =>
      by_cases hsame : nibbles = path
      · simp only [hsame, Bool.not_true, Bool.false_eq_true, if_false, if_true]
        exact ends_ok (some value)
      · simp only [hsame, Bool.not_true, Bool.false_eq_true, if_false]
        exact ends_ok none
  | @extension pairPath next hpath hnext ih =>
    obtain ⟨⟨isLeaf, nibbles⟩, hparse⟩ := parsePath_of_ne_nil hpath
    refine Ends.of_succ ?_
    simp only [getValueAt, hparse, ok_bind]
    cases isLeaf with
    | true => exact ends_err _
    | false =>
      by_cases hstarts : nibbles <+: path
      · simp only [hstarts, Bool.false_eq_true, if_false, if_true]
        exact ih (fun digest next hrefers => hrefs digest next (.extension pairPath hrefers)) _
      · simp only [hstarts, Bool.false_eq_true, if_false]
        exact ends_ok none
  | @full nodes value hnodes ih =>
    refine Ends.of_succ ?_
    cases path with
    | nil => exact ends_ok _
    | cons nibble path =>
      simp only [getValueAt]
      cases hchild : nodes nibble with
      | none => exact ends_ok _
      | some next =>
        exact ih nibble next hchild
          (fun digest next hrefers => hrefs digest next (.full value hchild hrefers)) path
  | @hash digest hdigest =>
    refine Ends.of_succ ?_
    simp only [getValueAt, hdigest, ne_eq, not_true_eq_false, if_false]
    cases hlookup : db.lookup digest with
    | none => exact ends_err _
    | some next => exact hrefs digest next (.hash digest) hlookup path

theorem lookup_ends (hacyclic : Acyclic db)
    (hnodes : ∀ digest node, db.lookup digest = some node → WellFormed node) {digest : Bytes}
    {node : Node} (hnode : db.lookup digest = some node) (path : List Nibble) :
    Ends (fun depth => getValueAt db depth node path) := by
  have hall : ∀ digest ∈ db.keySet, ∀ node, db.lookup digest = some node →
      ∀ path, Ends (fun depth => getValueAt db depth node path) := by
    refine induction_of_acyclic db.keySet.finite_toSet hacyclic ?_
    intro digest _ ih node hnode path
    refine (hnodes digest node hnode).walk_ends (fun next node' hrefers hlookup => ?_) path
    exact ih next (AssocMap.mem_keySet.mpr ⟨node', hlookup⟩) ⟨node, hnode, hrefers⟩ node' hlookup
  exact hall digest (AssocMap.mem_keySet.mpr ⟨node, hnode⟩) node hnode path

theorem getStrValue_ends {node : Node}
    (h : ∀ path, Ends (fun depth => getValueAt db depth node path)) (path : Bytes) :
    Ends (fun depth => getStrValue rlp db depth node path) := by
  have hvalue : Ends (fun depth => getValue rlp db depth node path) := by
    refine (h (pathToNibbles path)).bind (fun raw => ?_)
    cases raw with
    | none => exact ends_ok none
    | some v =>
      simp only
      split
      · exact ends_ok _
      · exact ends_err _
  refine hvalue.bind (fun value => ?_)
  cases value with
  | none => exact ends_ok none
  | some vec =>
    cases htext : Bytes.toText vec with
    | none =>
      simp only [htext]
      exact ends_err _
    | some str =>
      simp only [htext]
      exact ends_ok (some str)

end Node

/-- Decoding the nodes of a proof comes to a pair without a path before any other error. -/
def ReachesEmptyPath (rlp : Rlp) (proofsRlp : Bytes) : Prop :=
  ∃ before item after, rlp.iter proofsRlp = before ++ item :: after ∧
    (∀ bytes ∈ before, Node.Readable rlp bytes) ∧ Node.EmptyPath rlp item

variable {crates : Crates} {world : World} {proofsRlp rootHash key : Bytes}
  {expectedValue : Option String}

theorem proofNodes_comesTo (hshrink : Node.ItemsShrink crates.rlp) :
    ComesTo (fun depth => proofNodes crates { world with stackDepth := depth } proofsRlp)
      (((crates.rlp.iter proofsRlp).mapM
        (fun bytes => Node.decode crates.rlp (bytes.length + 1) bytes)).unwrapOr []) := by
  refine (comesTo_mapM (fun bytes _ => ?_)).map (Outcome.unwrapOr [])
  exact comesTo_of_stable (fun depth hdepth => Node.decode_succ hshrink hdepth)

theorem decodeAll_eq_panic_iff {rlp : Rlp} (hshrink : Node.ItemsShrink rlp) {proofsRlp : Bytes} :
    (rlp.iter proofsRlp).mapM (fun bytes => Node.decode rlp (bytes.length + 1) bytes) = .panic ↔
      ReachesEmptyPath rlp proofsRlp := by
  rw [mapM_eq_panic_iff]
  constructor
  · rintro ⟨before, item, after, hsplit, hbefore, hitem⟩
    refine ⟨before, item, after, hsplit, fun bytes hbytes => ?_, ?_⟩
    · obtain ⟨node, hnode⟩ := hbefore bytes hbytes
      exact Node.readable_of_decode hnode
    · exact Node.emptyPath_of_decode hshrink (Nat.lt_succ_self _) hitem
  · rintro ⟨before, item, after, hsplit, hbefore, hitem⟩
    refine ⟨before, item, after, hsplit, fun bytes hbytes => ?_, ?_⟩
    · exact Node.decode_of_readable hshrink (hbefore bytes hbytes) (Nat.lt_succ_self _)
    · exact Node.decode_of_emptyPath hshrink hitem (Nat.lt_succ_self _)

theorem wellFormed_of_lookup (hdigests : Node.FullDigests crates.rlp) {proof : List Node}
    (hproof : proofNodes crates world proofsRlp = .ok proof) {digest : Bytes} {node : Node}
    (h : (trieDB crates proof).lookup digest = some node) : Node.WellFormed node := by
  obtain ⟨hmem, -⟩ := lookup_trieDB h
  rcases Outcome.unwrapOr_eq_ok_iff.mp hproof with hok | ⟨-, rfl⟩
  · have hnode : (Outcome.ok node : Outcome Node.DecoderError Node) ∈ proof.map .ok :=
      List.mem_map_of_mem hmem
    rw [← mapM_eq_ok_iff.mp hok] at hnode
    obtain ⟨bytes, -, hdecode⟩ := List.mem_map.mp hnode
    exact Node.wellFormed_of_decode hdigests hdecode
  · cases hmem

/-- The answer of the walk from the node that a root hash names. -/
def rootAnswer (crates : Crates) (trie : AssocMap Bytes Node) (rootHash key : Bytes)
    (expectedValue : Option String) (depth : ℕ) : MayPanic Bool :=
  match trie.lookup rootHash with
  | none => pure false
  | some root =>
    ((fun value => decide (value = expectedValue)) <$>
      root.getStrValue crates.rlp trie depth key).unwrapOr false

/-- With references that have no cycle, the check of a proof comes to an answer exactly when its
decoding meets no pair without a path. -/
theorem verifyProof_answers_iff (crates : Crates) (world : World)
    (proofsRlp rootHash key : Bytes) (expectedValue : Option String)
    (hshrink : Node.ItemsShrink crates.rlp) (hdigests : Node.FullDigests crates.rlp)
    (hacyclic : ∀ depth proof,
      proofNodes crates { world with stackDepth := depth } proofsRlp = .ok proof →
        Node.Acyclic (trieDB crates proof)) :
    (∃ answer, ComesTo (fun depth => verifyProof crates { world with stackDepth := depth }
      proofsRlp rootHash key expectedValue) (.ok answer)) ↔
      ¬ ReachesEmptyPath crates.rlp proofsRlp := by
  have hnodes := @proofNodes_comesTo crates world proofsRlp hshrink
  rw [← decodeAll_eq_panic_iff hshrink]
  constructor
  · rintro ⟨answer, hanswer⟩ hpanic
    rw [hpanic] at hnodes
    obtain ⟨n, hn⟩ := hnodes
    have hends : ComesTo (fun depth => verifyProof crates { world with stackDepth := depth }
        proofsRlp rootHash key expectedValue) .panic := by
      refine ⟨n, fun depth hdepth => ?_⟩
      have hdecoded := hn depth hdepth
      simp only at hdecoded
      simp only [verifyProof, hdecoded]
      rfl
    exact absurd (hanswer.unique hends) (ok_ne_panic answer)
  · intro hdecodes
    obtain ⟨proof, hproof⟩ := Outcome.exists_unwrapOr_eq_ok [] hdecodes
    rw [hproof] at hnodes
    obtain ⟨n, hn⟩ := hnodes
    have hdecoded := hn n (Nat.le_refl n)
    have hrest : Ends (rootAnswer crates (trieDB crates proof) rootHash key expectedValue) := by
      unfold rootAnswer
      cases hroot : (trieDB crates proof).lookup rootHash with
      | none => exact ends_ok false
      | some root =>
        have hwalk := Node.lookup_ends (hacyclic n proof hdecoded)
          (fun digest node => wellFormed_of_lookup hdigests hdecoded) hroot
        exact ((Node.getStrValue_ends hwalk key).map _).unwrapOr false
    obtain ⟨answer, hanswer⟩ := hrest.exists_ok
    exact ⟨answer, ComesTo.bind ⟨n, hn⟩ hanswer⟩

theorem nymLeaf_decode {depth : ℕ} {node : Node}
    (h : Node.decode nymRlp depth nymLeaf = .ok node) : node = .leaf nymPath nymValue := by
  cases depth with
  | zero => cases h
  | succ depth =>
    have hlist : nymRlp.prototype nymLeaf = some (.list 2) := by decide +kernel
    have hpath : Node.valueAt nymRlp nymLeaf 0 = .ok nymPath := by decide +kernel
    have hvalue : Node.valueAt nymRlp nymLeaf 1 = .ok nymValue := by decide +kernel
    have hflags : nymPath.head? = some Node.isLeafMask := rfl
    have hmask : Node.isLeafMask &&& Node.isLeafMask = Node.isLeafMask := by decide
    rw [Node.decode_pair hlist, hpath, ok_bind, hflags, unwrap_some,
      ok_bind, Node.decodePair, if_pos hmask, hvalue] at h
    cases h
    rfl

theorem nymProof_acyclic {depth : ℕ} {proof : List Node}
    (h : proofNodes nymCrates { World.at 1536151300 with stackDepth := depth } nymProof =
      .ok proof) : Node.Acyclic (trieDB nymCrates proof) := by
  have hleaf : ∀ digest node, (trieDB nymCrates proof).lookup digest = some node →
      node = .leaf nymPath nymValue := by
    intro digest node hnode
    obtain ⟨hmem, -⟩ := lookup_trieDB hnode
    rcases Outcome.unwrapOr_eq_ok_iff.mp h with hok | ⟨-, rfl⟩
    · have hdecoded : (Outcome.ok node : Outcome Node.DecoderError Node) ∈ proof.map .ok :=
        List.mem_map_of_mem hmem
      rw [← mapM_eq_ok_iff.mp hok] at hdecoded
      obtain ⟨bytes, hbytes, hdecode⟩ := List.mem_map.mp hdecoded
      have hiter : nymCrates.rlp.iter nymProof = [nymLeaf] := by rfl
      rw [hiter, List.mem_singleton] at hbytes
      rw [hbytes] at hdecode
      exact nymLeaf_decode hdecode
    · cases hmem
  intro digest hcycle
  obtain ⟨next, ⟨node, hnode, hrefers⟩, -⟩ := Relation.TransGen.head'_iff.mp hcycle
  rw [hleaf digest node hnode] at hrefers
  cases hrefers

theorem nymProof_readable : ¬ ReachesEmptyPath nymRlp nymProof := by
  rintro ⟨before, item, after, hiter, -, hempty⟩
  have hleaf : item = nymLeaf := by
    have hmem : item ∈ nymRlp.iter nymProof :=
      hiter ▸ List.mem_append_right before List.mem_cons_self
    have honly : nymRlp.iter nymProof = [nymLeaf] := by rfl
    rw [honly, List.mem_singleton] at hmem
    exact hmem
  rw [hleaf] at hempty
  have hlist : nymRlp.prototype nymLeaf = some (.list 2) := by decide +kernel
  have hvalue : Node.valueAt nymRlp nymLeaf 0 = .ok nymPath := by decide +kernel
  cases hempty with
  | pair _ hpath =>
    rw [hvalue] at hpath
    cases hpath
  | extension _ hpath hflags hinner _ _ =>
    rw [hvalue] at hpath
    cases hpath
    cases hflags
    exact absurd hinner (by decide)
  | full hfull _ _ _ _ _ =>
    rw [hlist] at hfull
    cases hfull

theorem verifyProof_answers_nym : ∃ answer, ComesTo (fun depth => verifyProof nymCrates
    { World.at 1536151300 with stackDepth := depth } nymProof nymRoot nymKey
    (some nymValueText)) (.ok answer) := by
  have hshrink : Node.ItemsShrink nymRlp := by
    intro bytes i cur hcur
    simp only [nymRlp] at hcur
    split_ifs at hcur with hbytes
    have hmem : cur ∈ [nymPathRlp, nymValueRlp] := List.mem_of_getElem? hcur
    have hlt : ∀ value ∈ [nymPathRlp, nymValueRlp], value.length < nymLeaf.length := by
      decide +kernel
    rw [hbytes]
    exact hlt cur hmem
  have hdigests : Node.FullDigests nymRlp := by
    intro bytes digest hdata
    simp only [nymRlp] at hdata
    split_ifs at hdata with hbytes
    cases hdata
  exact (verifyProof_answers_iff nymCrates (World.at 1536151300) nymProof nymRoot nymKey
    (some nymValueText) hshrink hdigests (fun depth proof => nymProof_acyclic)).mpr
    nymProof_readable

/-- The items of a proof whose only node is a pair of two empty values. -/
def emptyPairRlp : Rlp where
  prototype b := List.lookup b [([0xc3, 0xc2, 0x80, 0x80], .list 1), ([0xc2, 0x80, 0x80], .list 2),
    ([0x80], .data 0)]
  item b i := if b = [0xc3, 0xc2, 0x80, 0x80] then [[0xc2, 0x80, 0x80]][i]?
    else if b = [0xc2, 0x80, 0x80] then [[0x80], [0x80]][i]?
    else none
  asVal b := if b = [0x80] then some [] else none
  isEmpty b := b = [0x80]
  iter b := if b = [0xc3, 0xc2, 0x80, 0x80] then [[0xc2, 0x80, 0x80]]
    else if b = [0xc2, 0x80, 0x80] then [[0x80], [0x80]]
    else []
  encode _ := []

/-- Whatever the depth, four bytes make the check abort. -/
theorem emptyPair_panics : ¬ ∃ depth, verifyProof { Crates.none with rlp := emptyPairRlp }
    { World.at 1536151300 with stackDepth := depth } [0xc3, 0xc2, 0x80, 0x80] [] [] none ≠
      .panic := by
  rintro ⟨depth, h⟩
  cases depth with
  | zero => exact h rfl
  | succ depth => exact h rfl

end IndySdk.Pool.StateProof
