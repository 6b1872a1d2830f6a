import IndySdk.PoolCrates
import Mathlib.Data.List.OfFn

/-!
# Nodes of the state trie

Nodes are decoded from a proof, encoded again to find the hash they are known by, and walked along
the nibbles of a key. Two walks from one root that both end agree on the value, as long as no two
different encodings among the nodes of both proofs share a hash.
-/

namespace IndySdk.Pool.StateProof

open Outcome

abbrev Nibble := Fin 16

inductive Node where
  | leaf (path value : Bytes)
  | extension (path : Bytes) (next : Node)
  | full (nodes : Nibble → Option Node) (value : Option Bytes)
  | hash (hash : Bytes)

namespace Node

def pairSize : ℕ := 2

def fullSize : ℕ := 17

def hashSize : ℕ := 32

def isLeafMask : UInt8 := 0x20

def isPathOddMask : UInt8 := 0x10

mutual

/-- What the encoder writes for a node. -/
def toItem : Node → RlpItem
  | .hash digest => .data digest
  | .leaf path value => .list [.data path, .data value]
  | .extension path next => .list [.data path, next.toItem]
  | .full nodes value =>
    .list (List.ofFn (fun i => childItem (nodes i)) ++ [.data (value.getD [])])

def childItem : Option Node → RlpItem
  | none => .data []
  | some node => node.toItem

end

inductive DecoderError where
  | rlp
  | custom (msg : String)
  deriving DecidableEq

/-- The value at a place of a list. -/
def valueAt (rlp : Rlp) (bytes : Bytes) (i : ℕ) : Outcome DecoderError Bytes := do
  let cur ← ofOption .rlp (rlp.item bytes i)
  ofOption .rlp (rlp.asVal cur)

/-- Decode a node; the recursion may not exceed a depth. -/
def decode (rlp : Rlp) : ℕ → Bytes → Outcome DecoderError Node
  | 0, _ => .panic
  | depth + 1, bytes =>
    match rlp.prototype bytes with
    | some (.list 2) => do
      let path ← valueAt rlp bytes 0
      let flags ← unwrap path.head?
      if flags &&& isLeafMask = isLeafMask then
        let value ← valueAt rlp bytes 1
        pure (.leaf path value)
      else if flags &&& isLeafMask = 0x00 then
        let cur ← ofOption .rlp (rlp.item bytes 1)
        let next ← decode rlp depth cur
        pure (.extension path next)
      else .err (.custom "Path contains incorrect flags byte")
    | some (.list 17) => do
      let nodes ← (List.finRange 16).mapM (fun i => do
        let cur ← ofOption .rlp (rlp.item bytes i)
        match rlp.prototype cur with
        | none => .err .rlp
        | some (.data 0) => pure none
        | some _ => some <$> decode rlp depth cur)
      let last ← ofOption .rlp (rlp.item bytes 16)
      let value ← if rlp.isEmpty last then pure none
        else some <$> ofOption .rlp (rlp.asVal last)
      pure (.full (fun i => (nodes[i]?).getD none) value)
    | some (.data 32) => .hash <$> ofOption .rlp (rlp.asVal bytes)
    | some _ => .err (.custom "Unexpected data")
    | none => .err .rlp

/-- Nodes by the hash of their encoding. -/
abbrev TrieDB := AssocMap Bytes Node

def pathToNibbles : Bytes → List Nibble
  | [] => []
  | s :: path =>
    Fin.ofNat 16 (s >>> 4).toNat :: Fin.ofNat 16 (s &&& 0x0F).toNat :: pathToNibbles path

def parsePath : Bytes → IndyResult (Bool × List Nibble)
  | [] => .panic
  | flags :: path =>
    let nibbles := pathToNibbles path
    .ok (flags &&& isLeafMask = isLeafMask,
      if flags &&& isPathOddMask = isPathOddMask then
        Fin.ofNat 16 (flags &&& 0x0F).toNat :: nibbles
      else nibbles)

/-- Walk from a node along the rest of a path; the recursion may not exceed a depth. -/
def getValueAt (db : TrieDB) : ℕ → Node → List Nibble → IndyResult (Option Bytes)
  | 0, _, _ => .panic
  | _ + 1, .full _ value, [] => .ok value
  | depth + 1, .full nodes _, nibble :: path =>
    match nodes nibble with
    | some next => getValueAt db depth next path
    | none => .ok none
  | depth + 1, .hash digest, path =>
    if digest.length ≠ hashSize then .panic
    else
      match db.lookup digest with
      | some next => getValueAt db depth next path
      | none => .err (errMsg .invalidStructure
          "Incomplete key-value DB for Patricia Merkle Trie to get value by the key")
  | _ + 1, .leaf pairPath value, path => do
    let (isLeaf, pairPath) ← parsePath pairPath
    if !isLeaf then
      .err (errMsg .invalidState
        "Incorrect Patricia Merkle Trie: node marked as leaf but path contains extension flag")
    else if pairPath = path then pure (some value) else pure none
  | depth + 1, .extension pairPath next, path => do
    let (isLeaf, pairPath) ← parsePath pairPath
    if isLeaf then
      .err (errMsg .invalidState
        "Incorrect Patricia Merkle Trie: node marked as extension but path contains leaf flag")
    else if pairPath <+: path then getValueAt db depth next (path.drop pairPath.length)
    else pure none

def getValue (rlp : Rlp) (db : TrieDB) (depth : ℕ) (node : Node) (path : Bytes) :
    IndyResult (Option Bytes) := do
  match ← getValueAt db depth node (pathToNibbles path) with
  | some v =>
    match ((rlp.iter v).mapM rlp.asVal).getD [] with
    | [val] => pure (some val)
    | _ => .err (errMsg .invalidStructure
        "Unexpected data format of value in Patricia Merkle Trie")
  | none => pure none

def getStrValue (rlp : Rlp) (db : TrieDB) (depth : ℕ) (node : Node) (path : Bytes) :
    IndyResult (Option String) := do
  match ← getValue rlp db depth node path with
  | some vec =>
    let str ← ofOption (errMsg .invalidStructure
      "Patricia Merkle Trie contains malformed utf8 string") (Bytes.toText vec)
    pure (some str)
  | none => pure none

/-- How two nodes of one encoding can look. -/
inductive SameItem : Node → Node → Prop where
  | hash (digest : Bytes) : SameItem (.hash digest) (.hash digest)
  | leaf (path value : Bytes) : SameItem (.leaf path value) (.leaf path value)
  | leafExtension (path value : Bytes) (next : Node) :
    SameItem (.leaf path value) (.extension path next)
  | extensionLeaf (path value : Bytes) (next : Node) :
    SameItem (.extension path next) (.leaf path value)
  | extension (path : Bytes) (next next' : Node) (h : next.toItem = next'.toItem) :
    SameItem (.extension path next) (.extension path next')
  | full (nodes nodes' : Nibble → Option Node) (value value' : Option Bytes)
    (hnodes : ∀ i, childItem (nodes i) = childItem (nodes' i))
    (hvalue : value.getD [] = value'.getD []) :
    SameItem (.full nodes value) (.full nodes' value')

theorem fullItems_ne_pair (items : Nibble → RlpItem) (value x y : RlpItem) :
    List.ofFn items ++ [value] ≠ [x, y] := by
  intro h
  have hlen := congrArg List.length h
  simp only [List.length_append, List.length_ofFn, List.length_cons, List.length_nil] at hlen
  omega

variable {node node' : Node} {db : TrieDB} {depth : ℕ} {path : List Nibble} {v : Option Bytes}

theorem sameItem_of_toItem_eq (h : node.toItem = node'.toItem) :
    SameItem node node' := by
  cases node with
  | hash digest =>
    cases node' with
    | hash digest' =>
      simp only [toItem, RlpItem.data.injEq] at h
      rw [h]
      exact .hash digest'
    | _ => simp [toItem] at h
  | leaf path value =>
    cases node' with
    | leaf path' value' =>
      simp only [toItem, RlpItem.list.injEq, List.cons.injEq, RlpItem.data.injEq] at h
      obtain ⟨rfl, rfl, -⟩ := h
      exact .leaf path value
    | extension path' next =>
      simp only [toItem, RlpItem.list.injEq, List.cons.injEq, RlpItem.data.injEq] at h
      obtain ⟨rfl, -⟩ := h
      exact .leafExtension path value next
    | full nodes value' =>
      simp only [toItem, RlpItem.list.injEq] at h
      exact absurd h.symm (fullItems_ne_pair _ _ _ _)
    | hash digest => simp [toItem] at h
  | extension path next =>
    cases node' with
    | leaf path' value =>
      simp only [toItem, RlpItem.list.injEq, List.cons.injEq, RlpItem.data.injEq] at h
      obtain ⟨rfl, -⟩ := h
      exact .extensionLeaf path value next
    | extension path' next' =>
      simp only [toItem, RlpItem.list.injEq, List.cons.injEq, RlpItem.data.injEq] at h
      obtain ⟨rfl, hnext, -⟩ := h
      exact .extension path next next' hnext
    | full nodes value =>
      simp only [toItem, RlpItem.list.injEq] at h
      exact absurd h.symm (fullItems_ne_pair _ _ _ _)
    | hash digest => simp [toItem] at h
  | full nodes value =>
    cases node' with
    | full nodes' value' =>
      simp only [toItem, RlpItem.list.injEq] at h
      obtain ⟨hnodes, hvalue⟩ := List.append_inj' h rfl
      have hfun := List.ofFn_injective hnodes
      simp only [List.cons.injEq, RlpItem.data.injEq, and_true] at hvalue
      exact .full nodes nodes' value value' (fun i => congrFun hfun i) hvalue
    | leaf path value' =>
      simp only [toItem, RlpItem.list.injEq] at h
      exact absurd h (fullItems_ne_pair _ _ _ _)
    | extension path next =>
      simp only [toItem, RlpItem.list.injEq] at h
      exact absurd h (fullItems_ne_pair _ _ _ _)
    | hash digest => simp [toItem] at h

theorem getValueAt_leaf {pairPath value : Bytes}
    (h : getValueAt db depth (.leaf pairPath value) path = .ok v) :
    ∃ nibbles, parsePath pairPath = .ok (true, nibbles) ∧
      v = if nibbles = path then some value else none := by
  cases depth with
  | zero => cases h
  | succ depth =>
    rw [getValueAt] at h
    obtain ⟨⟨isLeaf, nibbles⟩, hparse, h⟩ := bind_eq_ok_iff.mp h
    cases isLeaf with
    | false => cases h
    | true =>
      refine ⟨nibbles, hparse, ?_⟩
      simp only [Bool.not_true, Bool.false_eq_true, if_false] at h
      split_ifs at h ⊢ with hpath
      · cases h
        rfl
      · cases h
        rfl

theorem getValueAt_extension {pairPath : Bytes} {next : Node}
    (h : getValueAt db depth (.extension pairPath next) path = .ok v) :
    ∃ nibbles depth', parsePath pairPath = .ok (false, nibbles) ∧ depth = depth' + 1 ∧
      if nibbles <+: path then getValueAt db depth' next (path.drop nibbles.length) = .ok v
      else v = none := by
  cases depth with
  | zero => cases h
  | succ depth =>
    rw [getValueAt] at h
    obtain ⟨⟨isLeaf, nibbles⟩, hparse, h⟩ := bind_eq_ok_iff.mp h
    cases isLeaf with
    | true => cases h
    | false =>
      refine ⟨nibbles, depth, hparse, rfl, ?_⟩
      simp only [Bool.false_eq_true, if_false] at h
      split_ifs at h ⊢ with hpath
      · exact h
      · cases h
        rfl

theorem getValueAt_hash {digest : Bytes} (h : getValueAt db depth (.hash digest) path = .ok v) :
    ∃ next depth', digest.length = hashSize ∧ depth = depth' + 1 ∧
      db.lookup digest = some next ∧ getValueAt db depth' next path = .ok v := by
  cases depth with
  | zero => cases h
  | succ depth =>
    rw [getValueAt] at h
    split_ifs at h with hlen
    cases hnext : db.lookup digest with
    | none =>
      rw [hnext] at h
      cases h
    | some next =>
      rw [hnext] at h
      exact ⟨next, depth, not_not.mp hlen, rfl, rfl, h⟩

theorem getValueAt_full {nodes : Nibble → Option Node} {value : Option Bytes} {nibble : Nibble}
    (h : getValueAt db depth (.full nodes value) (nibble :: path) = .ok v) :
    ∃ depth', depth = depth' + 1 ∧
      ((nodes nibble = none ∧ v = none) ∨
        ∃ next, nodes nibble = some next ∧ getValueAt db depth' next path = .ok v) := by
  cases depth with
  | zero => cases h
  | succ depth =>
    rw [getValueAt] at h
    refine ⟨depth, rfl, ?_⟩
    cases hnext : nodes nibble with
    | none =>
      rw [hnext] at h
      cases h
      exact .inl ⟨rfl, rfl⟩
    | some next =>
      rw [hnext] at h
      exact .inr ⟨next, rfl, h⟩

theorem childItem_none_ne {next : Node} (h : getValueAt db depth next path = .ok v) :
    childItem none ≠ childItem (some next) := by
  intro he
  cases next with
  | hash digest =>
    obtain ⟨-, -, hlen, -⟩ := getValueAt_hash h
    simp only [childItem, toItem, RlpItem.data.injEq] at he
    rw [← he] at hlen
    exact absurd hlen (by decide)
  | _ => simp [childItem, toItem] at he

/-- Two proofs show nodes of one encoding under each hash that both of them hold. -/
def Agree (db db' : TrieDB) : Prop :=
  ∀ digest node node', db.lookup digest = some node → db'.lookup digest = some node' →
    node.toItem = node'.toItem

variable {db' : TrieDB} {depth' : ℕ}

/-- Walks from one root through agreeing proofs end at one value; an empty value counts as none. -/
theorem getValueAt_agree (hagree : Agree db db') {v' : Option Bytes}
    (hitem : node.toItem = node'.toItem) (h : getValueAt db depth node path = .ok v)
    (h' : getValueAt db' depth' node' path = .ok v') : v.getD [] = v'.getD [] := by
  induction depth generalizing depth' node node' path with
  | zero => cases h
  | succ depth ih =>
    cases sameItem_of_toItem_eq hitem with
    | hash digest =>
      obtain ⟨next, d, -, hd, hnext, h⟩ := getValueAt_hash h
      obtain ⟨next', d', -, -, hnext', h'⟩ := getValueAt_hash h'
      rw [← Nat.succ.inj hd] at h
      exact ih (hagree digest next next' hnext hnext') h h'
    | leaf pairPath value =>
      obtain ⟨nibbles, hparse, rfl⟩ := getValueAt_leaf h
      obtain ⟨nibbles', hparse', rfl⟩ := getValueAt_leaf h'
      rw [hparse] at hparse'
      cases hparse'
      rfl
    | leafExtension pairPath value next =>
      obtain ⟨nibbles, hparse, -⟩ := getValueAt_leaf h
      obtain ⟨nibbles', -, hparse', -⟩ := getValueAt_extension h'
      rw [hparse] at hparse'
      cases hparse'
    | extensionLeaf pairPath value next =>
      obtain ⟨nibbles, -, hparse, -⟩ := getValueAt_extension h
      obtain ⟨nibbles', hparse', -⟩ := getValueAt_leaf h'
      rw [hparse] at hparse'
      cases hparse'
    | extension pairPath next next' hnext =>
      obtain ⟨nibbles, d, hparse, hd, h⟩ := getValueAt_extension h
      obtain ⟨nibbles', d', hparse', -, h'⟩ := getValueAt_extension h'
      rw [hparse] at hparse'
      cases hparse'
      rw [← Nat.succ.inj hd] at h
      by_cases hpath : nibbles <+: path
      · rw [if_pos hpath] at h h'
        exact ih hnext h h'
      · rw [if_neg hpath] at h h'
        rw [h, h']
    | full nodes nodes' value value' hnodes hvalue =>
      cases path with
      | nil =>
        cases depth' with
        | zero => cases h'
        | succ depth' =>
          cases h
          cases h'
          exact hvalue
      | cons nibble path =>
        obtain ⟨d, hd, hnext⟩ := getValueAt_full h
        obtain ⟨d', -, hnext'⟩ := getValueAt_full h'
        have hchild := hnodes nibble
        rcases hnext with ⟨hnone, hv⟩ | ⟨next, hsome, hwalk⟩
        · rcases hnext' with ⟨hnone', hv'⟩ | ⟨next', hsome', hwalk'⟩
          · rw [hv, hv']
          · rw [hnone, hsome'] at hchild
            exact absurd hchild (childItem_none_ne hwalk')
        · rcases hnext' with ⟨hnone', hv'⟩ | ⟨next', hsome', hwalk'⟩
          · rw [hsome, hnone'] at hchild
            exact absurd hchild.symm (childItem_none_ne hwalk)
          · rw [hsome, hsome'] at hchild
            rw [← Nat.succ.inj hd] at hwalk
            exact ih hchild hwalk hwalk'

theorem getValue_ok {rlp : Rlp} (hiter : rlp.iter [] = []) {path : Bytes}
    (h : getValue rlp db depth node path = .ok v) :
    ∃ raw, getValueAt db depth node (pathToNibbles path) = .ok raw ∧
      ((raw = none ∧ v = none) ∨ ∃ x val, raw = some x ∧ x ≠ [] ∧
        ((rlp.iter x).mapM rlp.asVal).getD [] = [val] ∧ v = some val) := by
  rw [getValue] at h
  obtain ⟨raw, hraw, h⟩ := bind_eq_ok_iff.mp h
  refine ⟨raw, hraw, ?_⟩
  cases raw with
  | none =>
    cases h
    exact .inl ⟨rfl, rfl⟩
  | some x =>
    simp only at h
    split at h
    · rename_i val hval
      cases h
      refine .inr ⟨x, val, rfl, ?_, hval, rfl⟩
      intro hx
      rw [hx, hiter] at hval
      cases hval
    · cases h

theorem getValue_agree {rlp : Rlp} (hiter : rlp.iter [] = []) (hagree : Agree db db') {path : Bytes}
    {v' : Option Bytes} (hitem : node.toItem = node'.toItem)
    (h : getValue rlp db depth node path = .ok v)
    (h' : getValue rlp db' depth' node' path = .ok v') : v = v' := by
  obtain ⟨raw, hraw, hv⟩ := getValue_ok hiter h
  obtain ⟨raw', hraw', hv'⟩ := getValue_ok hiter h'
  have hsame := getValueAt_agree hagree hitem hraw hraw'
  rcases hv with ⟨rfl, rfl⟩ | ⟨x, val, rfl, hx, hval, rfl⟩
  · rcases hv' with ⟨rfl, rfl⟩ | ⟨x', val', rfl, hx', hval', rfl⟩
    · rfl
    · exact absurd hsame.symm hx'
  · rcases hv' with ⟨rfl, rfl⟩ | ⟨x', val', rfl, hx', hval', rfl⟩
    · exact absurd hsame hx
    · simp only [Option.getD_some] at hsame
      rw [← hsame, hval] at hval'
      rw [(List.cons.inj hval').1]

theorem getStrValue_agree {rlp : Rlp} (hiter : rlp.iter [] = []) (hagree : Agree db db')
    {path : Bytes} {v v' : Option String} (hitem : node.toItem = node'.toItem)
    (h : getStrValue rlp db depth node path = .ok v)
    (h' : getStrValue rlp db' depth' node' path = .ok v') : v = v' := by
  obtain ⟨raw, hraw, h⟩ := bind_eq_ok_iff.mp h
  obtain ⟨raw', hraw', h'⟩ := bind_eq_ok_iff.mp h'
  rw [← getValue_agree hiter hagree hitem hraw hraw'] at h'
  cases raw with
  | none =>
    cases h
    cases h'
    rfl
  | some x =>
    exact Outcome.ok.inj (h.symm.trans h')

end Node

end IndySdk.Pool.StateProof
