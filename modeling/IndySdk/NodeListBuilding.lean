import IndySdk.Base58
import IndySdk.NodeTransactions

/-!
# The list of nodes made from a ledger

A field of a node is the last value that one of its transactions gives it. The map of nodes and the
list of remotes are made from the same nodes, but only the map cannot hold two nodes of one alias.
-/

namespace IndySdk.Pool

open Outcome AssocMap List
open Crypto (buildFullVerkey buildFullVerkey_ne_panic)
open Ledger (MerkleTree)

/-! ### What the transactions say -/

/-- The last value of a field among the transactions of a node, in the order of the ledger. -/
def latest {α : Type} (field : NodeData → Option α) (dest : String)
    (txns : List NodeTransactionV1) : Option α :=
  ((txns.filter (fun t => t.dest = dest)).filterMap (fun t => field t.nodeData)).getLast?

theorem latest_append {α : Type} (field : NodeData → Option α) (dest : String)
    (txns : List NodeTransactionV1) (t : NodeTransactionV1) :
    latest field dest (txns ++ [t]) =
      if t.dest = dest then (field t.nodeData).or (latest field dest txns)
      else latest field dest txns := by
  rw [latest, filter_append, filterMap_append, getLast?_append]
  split
  · rename_i h
    have hsame : [t].filter (fun t => t.dest = dest) = [t] :=
      filter_eq_self.mpr (fun s hs => by rw [mem_singleton.mp hs]; exact decide_eq_true h)
    rw [hsame]
    have hlast : ([t].filterMap (fun t => field t.nodeData)).getLast? = field t.nodeData := by
      cases hfield : field t.nodeData with
      | none => simp [hfield]
      | some a => simp [hfield]
    rw [hlast]
    rfl
  · rename_i h
    rw [filter_cons_of_neg (by simpa using h)]
    rfl

theorem latest_of_new {α : Type} (field : NodeData → Option α) {dest : String}
    {txns : List NodeTransactionV1} (h : ∀ t ∈ txns, t.dest ≠ dest) :
    latest field dest txns = none := by
  have hnil : txns.filter (fun t => t.dest = dest) = [] := by
    rw [filter_eq_nil_iff]
    exact fun t ht htrue => h t ht (of_decide_eq_true htrue)
  rw [latest, hnil]
  rfl

variable (crates : NodeCrates) (protocolVersion : ℕ)

/-- The transaction of an item, when it can be read and is of the right version. -/
def txnOf (item : Bytes) : Option NodeTransactionV1 :=
  match crates.fromSlice item with
  | some (.nodeTransactionV0 txn) =>
    if protocolVersion = 1 then some (NodeTransactionV1.ofV0 txn) else none
  | some (.nodeTransactionV1 txn) => if protocolVersion = 2 then some txn else none
  | none => none

def txnsOf (items : List Bytes) : List NodeTransactionV1 :=
  items.filterMap (txnOf crates protocolVersion)

/-- The verification key of an update can be written out. -/
def KeyReadable (front : List NodeTransactionV1) (t : NodeTransactionV1) : Prop :=
  (∃ s ∈ front, s.dest = t.dest) → t.verkey.isSome →
    ∃ verkey, buildFullVerkey crates.base58 t.dest t.verkey = .ok verkey

/-- Every item is a transaction that is not refused. -/
structure Taken (items : List Bytes) : Prop where
  readable : ∀ item ∈ items, (txnOf crates protocolVersion item).isSome
  keys : ∀ front t back, txnsOf crates protocolVersion items = front ++ t :: back →
    KeyReadable crates front t

/-- Up to the first item that is refused, every transaction has the alias of the earlier ones of its
node. -/
def AliasesKept (items : List Bytes) : Prop :=
  ∀ front item back t, items = front ++ item :: back → Taken crates protocolVersion front →
    txnOf crates protocolVersion item = some t →
    ∀ s ∈ txnsOf crates protocolVersion front, s.dest = t.dest →
      s.nodeData.alias_ = t.nodeData.alias_

/-- The latest values of a node make it one that the pool works with. -/
structure Usable (txns : List NodeTransactionV1) (dest : String) : Prop where
  key : ∃ key, crates.base58.fromBase58 dest = .ok key ∧ key.length = 32
  validator : "VALIDATOR" ∈ (latest NodeData.services dest txns).getD []
  ip : (latest NodeData.clientIp dest txns).isSome
  port : (latest NodeData.clientPort dest txns).isSome
  bls : ∀ blskey, latest NodeData.blskey dest txns = some blskey →
    ∃ key verKey, crates.base58.fromBase58 blskey = .ok key ∧
      crates.verKeyFromBytes key = some verKey

/-- No two usable nodes share an alias, unless an item is refused. -/
def AliasesUnique (items : List Bytes) : Prop :=
  Taken crates protocolVersion items →
    ∀ t ∈ txnsOf crates protocolVersion items, ∀ t' ∈ txnsOf crates protocolVersion items,
      Usable crates (txnsOf crates protocolVersion items) t.dest →
      Usable crates (txnsOf crates protocolVersion items) t'.dest →
      t.nodeData.alias_ = t'.nodeData.alias_ → t.dest = t'.dest

/-- The remote has the alias, the key and the latest address of a node, and the map has the latest
BLS key of the node under that alias. -/
def Carries (txns : List NodeTransactionV1) (nodes : Nodes) (remote : RemoteNode) : Prop :=
  ∃ dest key ip port, (∃ t ∈ txns, t.dest = dest) ∧
    (∀ t ∈ txns, t.dest = dest → t.nodeData.alias_ = remote.name) ∧
    crates.base58.fromBase58 dest = .ok key ∧ remote.publicKey = crates.vkToCurve25519 key ∧
    latest NodeData.clientIp dest txns = some ip ∧
    latest NodeData.clientPort dest txns = some port ∧
    remote.zaddr = "tcp://" ++ ip ++ ":" ++ toString port ∧
    ∃ verkey, nodes.lookup remote.name = some verkey ∧
      blsVerkeyOf crates (latest NodeData.blskey dest txns) = .ok verkey

/-- An error, or a map and a list of the same aliases with as many entries, which carry the latest
values of the ledger. -/
def NodeListSound (items : List Bytes) (res : IndyResult (Nodes × List RemoteNode)) : Prop :=
  match res with
  | .ok (nodes, remotes) =>
    (∀ nodeAlias, nodeAlias ∈ nodes ↔ nodeAlias ∈ remotes.map RemoteNode.name) ∧
      nodes.keys.length = remotes.length ∧
      ∀ remote ∈ remotes, Carries crates (txnsOf crates protocolVersion items) nodes remote
  | .err _ => True
  | .panic => False

variable {crates protocolVersion} {item : Bytes} {t : NodeTransactionV1}

/-! ### Reading the ledger -/

theorem genTxnOf_eq_ok_iff :
    genTxnOf crates protocolVersion item = .ok t ↔ txnOf crates protocolVersion item = some t := by
  rw [genTxnOf, txnOf]
  cases crates.fromSlice item with
  | none => exact iff_of_false (err_ne_ok _ _) (fun h => by cases h)
  | some genTxn =>
    cases genTxn with
    | nodeTransactionV0 txn =>
      rw [ofOption_some, ok_bind]
      dsimp only
      rw [ofVersion]
      by_cases h : protocolVersion = 1
      · rw [if_neg (not_not.mpr h), if_pos h, Outcome.ok.injEq, Option.some.injEq]
      · rw [if_pos h, if_neg h]
        exact iff_of_false (err_ne_ok _ _) (fun h => by cases h)
    | nodeTransactionV1 txn =>
      rw [ofOption_some, ok_bind]
      dsimp only
      rw [ofVersion]
      by_cases h : protocolVersion = 2
      · rw [if_neg (not_not.mpr h), if_pos h, Outcome.ok.injEq, Option.some.injEq]
      · rw [if_pos h, if_neg h]
        exact iff_of_false (err_ne_ok _ _) (fun h => by cases h)

theorem genTxnOf_ne_panic (item : Bytes) : genTxnOf crates protocolVersion item ≠ .panic := by
  refine bind_ne_panic (ofOption_ne_panic _ _) (fun genTxn => ?_)
  have hversion : ∀ version needed txn, ofVersion protocolVersion version needed txn ≠ .panic := by
    intro version needed txn
    rw [ofVersion]
    split
    · exact err_ne_panic _
    · exact ok_ne_panic _
  cases genTxn with
  | nodeTransactionV0 txn => exact hversion _ _ _
  | nodeTransactionV1 txn => exact hversion _ _ _

/-- A node as its transactions have left it. -/
structure LatestOf (txns : List NodeTransactionV1) (dest : String) (node : NodeTransactionV1) :
    Prop where
  dest_eq : node.dest = dest
  named : ∃ t ∈ txns, t.dest = dest
  aliases : ∀ t ∈ txns, t.dest = dest → t.nodeData.alias_ = node.nodeData.alias_
  ip : node.nodeData.clientIp = latest NodeData.clientIp dest txns
  port : node.nodeData.clientPort = latest NodeData.clientPort dest txns
  services : node.nodeData.services = latest NodeData.services dest txns
  bls : node.nodeData.blskey = latest NodeData.blskey dest txns

/-- The map holds the nodes of the transactions. -/
structure StateOf (txns : List NodeTransactionV1) (nodes : AssocMap String NodeTransactionV1) :
    Prop where
  known : ∀ t ∈ txns, ∃ node, nodes.lookup t.dest = some node
  latestOf : ∀ dest node, nodes.lookup dest = some node → LatestOf txns dest node

variable {node : NodeTransactionV1}

theorem LatestOf.of_ne {txns : List NodeTransactionV1} {dest : String} (h : LatestOf txns dest node)
    (hne : t.dest ≠ dest) : LatestOf (txns ++ [t]) dest node where
  dest_eq := h.dest_eq
  named := by
    obtain ⟨s, hs, hdest⟩ := h.named
    exact ⟨s, mem_append_left _ hs, hdest⟩
  aliases := by
    intro s hs hdest
    obtain hs | hs := mem_append.mp hs
    · exact h.aliases s hs hdest
    · rw [mem_singleton.mp hs] at hdest
      exact absurd hdest hne
  ip := by rw [latest_append, if_neg hne, h.ip]
  port := by rw [latest_append, if_neg hne, h.port]
  services := by rw [latest_append, if_neg hne, h.services]
  bls := by rw [latest_append, if_neg hne, h.bls]

theorem LatestOf.first {txns : List NodeTransactionV1} {t : NodeTransactionV1}
    (h : ∀ s ∈ txns, s.dest ≠ t.dest) : LatestOf (txns ++ [t]) t.dest t where
  dest_eq := rfl
  named := ⟨t, mem_append_right _ (mem_singleton.mpr rfl), rfl⟩
  aliases := by
    intro s hs hdest
    obtain hs | hs := mem_append.mp hs
    · exact absurd hdest (h s hs)
    · rw [mem_singleton.mp hs]
  ip := by rw [latest_append, if_pos rfl, latest_of_new _ h, Option.or_none]
  port := by rw [latest_append, if_pos rfl, latest_of_new _ h, Option.or_none]
  services := by rw [latest_append, if_pos rfl, latest_of_new _ h, Option.or_none]
  bls := by rw [latest_append, if_pos rfl, latest_of_new _ h, Option.or_none]

theorem NodeTransactionV1.update_cases (h : node.dest = t.dest) :
    (node.nodeData.alias_ ≠ t.nodeData.alias_ ∧ node.update crates.base58 t = .panic) ∨
    (node.nodeData.alias_ = t.nodeData.alias_ ∧ (t.verkey.isSome →
        ∃ verkey, buildFullVerkey crates.base58 t.dest t.verkey = .ok verkey) ∧
      ∃ node', node.update crates.base58 t = .ok node' ∧ node'.dest = node.dest ∧
        node'.nodeData = mergeData node.nodeData t.nodeData) ∨
    (node.nodeData.alias_ = t.nodeData.alias_ ∧ (¬ (t.verkey.isSome →
        ∃ verkey, buildFullVerkey crates.base58 t.dest t.verkey = .ok verkey)) ∧
      ∃ err, node.update crates.base58 t = .err err) := by
  rw [update, if_neg (not_not.mpr h)]
  by_cases halias : node.nodeData.alias_ = t.nodeData.alias_
  · rw [if_neg (not_not.mpr halias)]
    cases hverkey : t.verkey with
    | none => exact .inr (.inl ⟨halias, (fun h => by cases h), _, rfl, rfl, rfl⟩)
    | some verkey =>
      dsimp only
      rw [h]
      cases hfull : buildFullVerkey crates.base58 t.dest (some verkey) with
      | ok full => exact .inr (.inl ⟨halias, fun _ => ⟨full, rfl⟩, _, rfl, rfl, rfl⟩)
      | err err =>
        refine .inr (.inr ⟨halias, fun hall => ?_, err, rfl⟩)
        obtain ⟨full, h⟩ := hall rfl
        cases h
      | panic => exact absurd hfull (buildFullVerkey_ne_panic _ _)
  · rw [if_pos halias]
    exact .inl ⟨halias, rfl⟩

theorem LatestOf.update {txns : List NodeTransactionV1} {node' : NodeTransactionV1}
    (h : LatestOf txns t.dest node) (halias : node.nodeData.alias_ = t.nodeData.alias_)
    (hdest : node'.dest = node.dest)
    (hdata : node'.nodeData = NodeTransactionV1.mergeData node.nodeData t.nodeData) :
    LatestOf (txns ++ [t]) t.dest node' where
  dest_eq := hdest.trans h.dest_eq
  named := ⟨t, mem_append_right _ (mem_singleton.mpr rfl), rfl⟩
  aliases := by
    intro s hs hs'
    rw [hdata]
    obtain hs | hs := mem_append.mp hs
    · exact h.aliases s hs hs'
    · rw [mem_singleton.mp hs]
      exact halias.symm
  ip := by rw [latest_append, if_pos rfl, hdata, ← h.ip, NodeTransactionV1.mergeData]
  port := by rw [latest_append, if_pos rfl, hdata, ← h.port, NodeTransactionV1.mergeData]
  services := by rw [latest_append, if_pos rfl, hdata, ← h.services, NodeTransactionV1.mergeData]
  bls := by rw [latest_append, if_pos rfl, hdata, ← h.bls, NodeTransactionV1.mergeData]

theorem StateOf.insert {txns : List NodeTransactionV1} {nodes : AssocMap String NodeTransactionV1}
    (h : StateOf txns nodes) (hnode : LatestOf (txns ++ [t]) t.dest node) :
    StateOf (txns ++ [t]) (nodes.insert t.dest node) where
  known := by
    intro s hs
    by_cases hdest : s.dest = t.dest
    · rw [hdest]
      exact ⟨node, AList.lookup_insert _⟩
    · obtain hs | hs := mem_append.mp hs
      · rw [AList.lookup_insert_ne hdest]
        exact h.known s hs
      · exact absurd (congrArg _ (mem_singleton.mp hs)) hdest
  latestOf := by
    intro dest node' hlookup
    obtain ⟨rfl, rfl⟩ | ⟨hne, hlookup⟩ := lookup_insert_eq_some.mp hlookup
    · exact hnode
    · exact (h.latestOf dest node' hlookup).of_ne (Ne.symm hne)

/-- One transaction is taken, refused, or names its node by another alias. -/
theorem addGenTxn_cases {txns : List NodeTransactionV1} {nodes : AssocMap String NodeTransactionV1}
    (h : StateOf txns nodes) (ht : txnOf crates protocolVersion item = some t) :
    ((∃ s ∈ txns, s.dest = t.dest ∧ s.nodeData.alias_ ≠ t.nodeData.alias_) ∧
      addGenTxn crates protocolVersion nodes item = .panic) ∨
    ((∀ s ∈ txns, s.dest = t.dest → s.nodeData.alias_ = t.nodeData.alias_) ∧
      ((KeyReadable crates txns t ∧ ∃ nodes', StateOf (txns ++ [t]) nodes' ∧
          addGenTxn crates protocolVersion nodes item = .ok nodes') ∨
        ¬ KeyReadable crates txns t ∧
          ∃ err, addGenTxn crates protocolVersion nodes item = .err err)) := by
  rw [addGenTxn, genTxnOf_eq_ok_iff.mpr ht, ok_bind]
  cases hlookup : nodes.lookup t.dest with
  | none =>
    have hnew : ∀ s ∈ txns, s.dest ≠ t.dest := by
      intro s hs hdest
      obtain ⟨node, hnode⟩ := h.known s hs
      rw [hdest, hlookup] at hnode
      cases hnode
    refine .inr ⟨fun s hs hdest => absurd hdest (hnew s hs), .inl ⟨?_, _, ?_, rfl⟩⟩
    · rintro ⟨s, hs, hdest⟩
      exact absurd hdest (hnew s hs)
    · exact h.insert (LatestOf.first hnew)
  | some node =>
    have hnode := h.latestOf t.dest node hlookup
    have hkey : KeyReadable crates txns t ↔ (t.verkey.isSome →
        ∃ verkey, buildFullVerkey crates.base58 t.dest t.verkey = .ok verkey) := by
      rw [KeyReadable, forall_prop_of_true hnode.named]
    dsimp only
    rw [hkey]
    obtain ⟨halias, hpanic⟩ | ⟨halias, hverkey, node', hok, hdest, hdata⟩ |
      ⟨halias, hverkey, err, herr⟩ := NodeTransactionV1.update_cases hnode.dest_eq
    · obtain ⟨s, hs, hdest⟩ := hnode.named
      refine .inl ⟨⟨s, hs, hdest, ?_⟩, by rw [hpanic]; rfl⟩
      rw [hnode.aliases s hs hdest]
      exact halias
    · refine .inr ⟨fun s hs hs' => (hnode.aliases s hs hs').trans halias,
        Or.inl ⟨hverkey, nodes.insert t.dest node', ?_, ?_⟩⟩
      · exact h.insert (hnode.update halias hdest hdata)
      · rw [hok]
        rfl
    · refine .inr ⟨fun s hs hs' => (hnode.aliases s hs hs').trans halias,
        Or.inr ⟨hverkey, err, ?_⟩⟩
      rw [herr]
      rfl

/-! ### The whole ledger -/

theorem concat_eq_append_cons {α : Type} {l front back : List α} {x y : α} :
    l ++ [x] = front ++ y :: back ↔
      (back = [] ∧ front = l ∧ y = x) ∨ ∃ rest, back = rest ++ [x] ∧ l = front ++ y :: rest := by
  constructor
  · intro h
    obtain rfl | ⟨rest, last, rfl⟩ := eq_nil_or_concat' back
    · obtain ⟨hfront, hlast⟩ := append_inj' h rfl
      cases hlast
      exact .inl ⟨rfl, hfront.symm, rfl⟩
    · have h' : l ++ [x] = (front ++ y :: rest) ++ [last] := by
        rw [h, append_assoc, cons_append]
      obtain ⟨hfront, hlast⟩ := append_inj' h' rfl
      cases hlast
      exact .inr ⟨rest, rfl, hfront⟩
  · rintro (⟨rfl, rfl, rfl⟩ | ⟨rest, rfl, rfl⟩)
    · rfl
    · rw [append_assoc, cons_append]

theorem txnsOf_append (items : List Bytes) (h : txnOf crates protocolVersion item = some t) :
    txnsOf crates protocolVersion (items ++ [item]) =
      txnsOf crates protocolVersion items ++ [t] := by
  rw [txnsOf, filterMap_append, filterMap_cons_some h]
  rfl

theorem taken_append {items : List Bytes} :
    Taken crates protocolVersion (items ++ [item]) ↔ Taken crates protocolVersion items ∧
      ∃ t, txnOf crates protocolVersion item = some t ∧
        KeyReadable crates (txnsOf crates protocolVersion items) t := by
  constructor
  · intro h
    obtain ⟨t, ht⟩ := Option.isSome_iff_exists.mp
      (h.readable item (mem_append_right _ (mem_singleton.mpr rfl)))
    refine ⟨⟨fun other hother => h.readable other (mem_append_left _ hother), ?_⟩, t, ht, ?_⟩
    · intro front s back hsplit
      refine h.keys front s (back ++ [t]) ?_
      rw [txnsOf_append items ht, hsplit, append_assoc, cons_append]
    · exact h.keys _ t [] (txnsOf_append items ht)
  · rintro ⟨h, t, ht, hkey⟩
    refine ⟨?_, ?_⟩
    · intro other hother
      obtain hother | hother := mem_append.mp hother
      · exact h.readable other hother
      · rw [mem_singleton.mp hother, ht]
        rfl
    · intro front s back hsplit
      rw [txnsOf_append items ht] at hsplit
      obtain ⟨-, rfl, rfl⟩ | ⟨rest, -, hrest⟩ := concat_eq_append_cons.mp hsplit
      · exact hkey
      · exact h.keys front s rest hrest

theorem aliasesKept_append {items : List Bytes} :
    AliasesKept crates protocolVersion (items ++ [item]) ↔
      AliasesKept crates protocolVersion items ∧ (Taken crates protocolVersion items →
        ∀ t, txnOf crates protocolVersion item = some t →
          ∀ s ∈ txnsOf crates protocolVersion items, s.dest = t.dest →
            s.nodeData.alias_ = t.nodeData.alias_) := by
  constructor
  · intro h
    refine ⟨?_, fun htaken t ht => h items item [] t rfl htaken ht⟩
    intro front other back t hsplit
    refine h front other (back ++ [item]) t ?_
    rw [hsplit, append_assoc, cons_append]
  · rintro ⟨h, hlast⟩ front other back t hsplit htaken ht
    obtain ⟨-, rfl, rfl⟩ | ⟨rest, -, hrest⟩ := concat_eq_append_cons.mp hsplit
    · exact hlast htaken t ht
    · exact h front other rest t hrest htaken ht

/-- All items are taken, or the first that is not is refused or aborts the thread. -/
theorem foldlM_addGenTxn_cases (items : List Bytes) :
    (∃ nodes, items.foldlM (addGenTxn crates protocolVersion) ∅ = .ok nodes ∧
      Taken crates protocolVersion items ∧ AliasesKept crates protocolVersion items ∧
      StateOf (txnsOf crates protocolVersion items) nodes) ∨
    (∃ err, items.foldlM (addGenTxn crates protocolVersion) ∅ = .err err ∧
      ¬ Taken crates protocolVersion items ∧ AliasesKept crates protocolVersion items) ∨
    (items.foldlM (addGenTxn crates protocolVersion) ∅ = .panic ∧
      ¬ AliasesKept crates protocolVersion items) := by
  induction items using List.reverseRecOn with
  | nil =>
    refine .inl ⟨∅, rfl, ⟨fun _ h => absurd h not_mem_nil, ?_⟩, ?_,
      ⟨fun _ h => absurd h not_mem_nil, fun _ _ h => by cases h⟩⟩
    · intro front t back h
      cases front with
      | nil => cases h
      | cons first front => cases h
    · intro front item back t h
      cases front with
      | nil => cases h
      | cons first front => cases h
  | append_singleton items item ih =>
    rw [foldlM_append, aliasesKept_append, taken_append]
    obtain ⟨nodes, hok, htaken, hkept, hstate⟩ | ⟨err, herr, htaken, hkept⟩ | ⟨hpanic, hkept⟩ := ih
    · rw [hok, ok_bind, foldlM_cons, forall_prop_of_true htaken]
      cases ht : txnOf crates protocolVersion item with
      | none =>
        have hrefused : ∃ err, genTxnOf crates protocolVersion item = .err err := by
          cases h : genTxnOf crates protocolVersion item with
          | ok t =>
            rw [genTxnOf_eq_ok_iff.mp h] at ht
            cases ht
          | err err => exact ⟨err, rfl⟩
          | panic => exact absurd h (genTxnOf_ne_panic item)
        obtain ⟨err, herr⟩ := hrefused
        refine .inr (.inl ⟨err, by rw [addGenTxn, herr]; rfl, ?_, hkept, ?_⟩)
        · rintro ⟨-, t, hnone, -⟩
          cases hnone
        · intro t hnone
          cases hnone
      | some t =>
        obtain ⟨⟨s, hs, hdest, halias⟩, hpanic⟩ | ⟨halias, hcases⟩ := addGenTxn_cases hstate ht
        · refine .inr (.inr ⟨by rw [hpanic]; rfl, ?_⟩)
          rintro ⟨-, hall⟩
          exact halias (hall t rfl s hs hdest)
        · have hsame : ∀ t', some t = some t' →
              ∀ s ∈ txnsOf crates protocolVersion items, s.dest = t'.dest →
                s.nodeData.alias_ = t'.nodeData.alias_ := by
            intro t' ht'
            cases ht'
            exact halias
          obtain ⟨hkey, nodes', hstate', hok'⟩ | ⟨hkey, err, herr⟩ := hcases
          · refine .inl ⟨nodes', by rw [hok']; rfl, ⟨htaken, t, rfl, hkey⟩, ⟨hkept, hsame⟩, ?_⟩
            rw [txnsOf_append items ht]
            exact hstate'
          · refine .inr (.inl ⟨err, by rw [herr]; rfl, ?_, hkept, hsame⟩)
            rintro ⟨-, t', ht', hkey'⟩
            cases ht'
            exact hkey hkey'
    · rw [herr]
      exact .inr (.inl ⟨err, rfl, fun h => htaken h.1, hkept, fun h => absurd h htaken⟩)
    · rw [hpanic]
      exact .inr (.inr ⟨rfl, fun h => hkept h.1⟩)

/-! ### Nodes and remotes -/

theorem nodeVerkeyOf_cases (dest : String) :
    (∃ key, crates.base58.fromBase58 dest = .ok key ∧ key.length = 32 ∧
      nodeVerkeyOf crates dest = .ok (crates.vkToCurve25519 key)) ∨
    (¬ (∃ key, crates.base58.fromBase58 dest = .ok key ∧ key.length = 32) ∧
      ∃ err, nodeVerkeyOf crates dest = .err err) := by
  rw [nodeVerkeyOf]
  cases hkey : crates.base58.fromBase58 dest with
  | error msg =>
    refine .inr ⟨?_, _, rfl⟩
    rintro ⟨key, h, -⟩
    cases h
  | ok key =>
    dsimp only
    split
    · rename_i hlength
      exact .inl ⟨key, rfl, hlength, rfl⟩
    · rename_i hlength
      refine .inr ⟨?_, _, rfl⟩
      rintro ⟨key', h, hlength'⟩
      cases h
      exact hlength hlength'

theorem addressOf_cases (data : NodeData) :
    (∃ ip port, data.clientIp = some ip ∧ data.clientPort = some port ∧
      addressOf data = .ok ("tcp://" ++ ip ++ ":" ++ toString port)) ∨
    (¬ (data.clientIp.isSome ∧ data.clientPort.isSome) ∧ ∃ err, addressOf data = .err err) := by
  rw [addressOf]
  cases data.clientIp with
  | none => exact .inr ⟨(fun h => by cases h.1), _, rfl⟩
  | some ip =>
    cases data.clientPort with
    | none => exact .inr ⟨(fun h => by cases h.2), _, rfl⟩
    | some port => exact .inl ⟨ip, port, rfl, rfl, rfl⟩

theorem blsVerkeyOf_cases (blskey : Option String) :
    ((∀ text, blskey = some text → ∃ key verKey, crates.base58.fromBase58 text = .ok key ∧
        crates.verKeyFromBytes key = some verKey) ∧
      ∃ verkey, blsVerkeyOf crates blskey = .ok verkey) ∨
    (¬ (∀ text, blskey = some text → ∃ key verKey, crates.base58.fromBase58 text = .ok key ∧
        crates.verKeyFromBytes key = some verKey) ∧
      ∃ err, blsVerkeyOf crates blskey = .err err) := by
  cases blskey with
  | none => exact .inl ⟨(fun _ h => by cases h), none, rfl⟩
  | some text =>
    rw [blsVerkeyOf]
    cases hkey : crates.base58.fromBase58 text with
    | error msg =>
      refine .inr ⟨fun h => ?_, _, rfl⟩
      obtain ⟨key, verKey, hkey', -⟩ := h text rfl
      rw [hkey] at hkey'
      cases hkey'
    | ok key =>
      dsimp only
      cases hverKey : crates.verKeyFromBytes key with
      | none =>
        refine .inr ⟨fun h => ?_, _, rfl⟩
        obtain ⟨key', verKey, hkey', hverKey'⟩ := h text rfl
        rw [hkey] at hkey'
        cases hkey'
        rw [hverKey] at hverKey'
        cases hverKey'
      | some verKey =>
        refine .inl ⟨?_, some verKey, rfl⟩
        intro text' htext
        cases htext
        exact ⟨key, verKey, hkey, hverKey⟩

theorem nodeAndRemote_cases {txns : List NodeTransactionV1} {dest : String}
    {node : NodeTransactionV1} (h : LatestOf txns dest node) :
    (Usable crates txns dest ∧ ∃ key ip port verkey, crates.base58.fromBase58 dest = .ok key ∧
      latest NodeData.clientIp dest txns = some ip ∧
      latest NodeData.clientPort dest txns = some port ∧
      blsVerkeyOf crates (latest NodeData.blskey dest txns) = .ok verkey ∧
      nodeAndRemote crates node = .ok ((node.nodeData.alias_, verkey),
        ⟨node.nodeData.alias_, crates.vkToCurve25519 key, "tcp://" ++ ip ++ ":" ++ toString port,
          false⟩)) ∨
    (¬ Usable crates txns dest ∧ ∃ err, nodeAndRemote crates node = .err err) := by
  rw [nodeAndRemote, h.dest_eq]
  obtain ⟨key, hkey, hlength, hok⟩ | ⟨hkey, err, herr⟩ := @nodeVerkeyOf_cases crates dest
  · rw [hok, ok_bind, h.services]
    split
    · rename_i hvalidator
      exact .inr ⟨fun husable => hvalidator husable.validator, _, rfl⟩
    · rename_i hvalidator
      obtain ⟨ip, port, hip, hport, haddress⟩ | ⟨hnone, err, herr⟩ :=
        addressOf_cases node.nodeData
      · rw [haddress, ok_bind, h.bls]
        rw [h.ip] at hip
        rw [h.port] at hport
        obtain ⟨hbls, verkey, hverkey⟩ | ⟨hbls, err, herr⟩ :=
          @blsVerkeyOf_cases crates (latest NodeData.blskey dest txns)
        · rw [hverkey]
          refine .inl ⟨⟨⟨key, hkey, hlength⟩, not_not.mp hvalidator, ?_, ?_, hbls⟩,
            key, ip, port, verkey, hkey, hip, hport, rfl, rfl⟩
          · rw [hip]
            rfl
          · rw [hport]
            rfl
        · rw [herr]
          exact .inr ⟨fun husable => hbls husable.bls, err, rfl⟩
      · rw [herr]
        refine .inr ⟨fun husable => hnone ?_, err, rfl⟩
        rw [h.ip, h.port]
        exact ⟨husable.ip, husable.port⟩
  · rw [herr]
    exact .inr ⟨fun husable => hkey husable.key, err, rfl⟩

/-- The result of a node that can be used. -/
def okNode (res : IndyResult ((String × Option VerKey) × RemoteNode)) :
    Option ((String × Option VerKey) × RemoteNode) :=
  match res with
  | .ok taken => some taken
  | _ => none

/-- All results that are taken give a remote, and the last one of an alias gives its entry. -/
theorem foldl_takeNode (results : List (IndyResult ((String × Option VerKey) × RemoteNode))) :
    (results.foldl takeNode (∅, [])).2 = (results.filterMap okNode).map Prod.snd ∧
    (∀ nodeAlias, nodeAlias ∈ (results.foldl takeNode (∅, [])).1 ↔
      nodeAlias ∈ (results.filterMap okNode).map (fun taken => taken.1.1)) ∧
    (((results.filterMap okNode).map (fun taken => taken.1.1)).Nodup →
      ∀ taken ∈ results.filterMap okNode,
        (results.foldl takeNode (∅, [])).1.lookup taken.1.1 = some taken.1.2) := by
  induction results using List.reverseRecOn with
  | nil =>
    refine ⟨rfl, fun nodeAlias => ?_, fun _ taken h => absurd h not_mem_nil⟩
    exact iff_of_false (AList.notMem_empty _) not_mem_nil
  | append_singleton results res ih =>
    obtain ⟨hremotes, hnodes, hlookup⟩ := ih
    rw [foldl_append, filterMap_append]
    cases res with
    | ok taken =>
      obtain ⟨⟨name, verkey⟩, remote⟩ := taken
      have hlast : [(.ok ((name, verkey), remote) :
          IndyResult ((String × Option VerKey) × RemoteNode))].filterMap okNode =
          [((name, verkey), remote)] := rfl
      rw [hlast, map_append, map_append]
      refine ⟨?_, fun nodeAlias => ?_, fun hnodup other hother => ?_⟩
      · rw [← hremotes]
        rfl
      · rw [mem_append, ← hnodes, map_singleton, mem_singleton, or_comm]
        exact AList.mem_insert _
      · obtain ⟨hfront, -, hdisjoint⟩ := nodup_append.mp hnodup
        change (AList.insert name verkey _ : Nodes).lookup _ = _
        obtain hother | hother := mem_append.mp hother
        · rw [AList.lookup_insert_ne (hdisjoint _ (mem_map_of_mem hother) _
            (mem_singleton.mpr rfl))]
          exact hlookup hfront other hother
        · rw [mem_singleton.mp hother]
          exact AList.lookup_insert _
    | err err =>
      have hlast : [(.err err : IndyResult ((String × Option VerKey) × RemoteNode))].filterMap
          okNode = [] := rfl
      rw [hlast, append_nil]
      exact ⟨hremotes, hnodes, hlookup⟩
    | panic =>
      have hlast : [(.panic : IndyResult ((String × Option VerKey) × RemoteNode))].filterMap
          okNode = [] := rfl
      rw [hlast, append_nil]
      exact ⟨hremotes, hnodes, hlookup⟩

theorem keys_length_eq_iff {α : Type} {nodes : AssocMap String α} {names : List String}
    (h : ∀ name, name ∈ nodes ↔ name ∈ names) :
    nodes.keys.length = names.length ↔ names.Nodup := by
  have hset : nodes.keys.toFinset = names.toFinset := by
    ext name
    rw [mem_toFinset, mem_toFinset, ← AList.mem_keys]
    exact h name
  have hkeys : nodes.keys.length = names.toFinset.card := by
    rw [← hset]
    exact (toFinset_card_of_nodup nodes.keys_nodup).symm
  rw [hkeys]
  exact @Multiset.toFinset_card_eq_card_iff_nodup _ _ (names : Multiset String)

variable {txns : List NodeTransactionV1} {nodes : AssocMap String NodeTransactionV1}

theorem StateOf.pairwise_values (h : StateOf txns nodes) :
    nodes.values.Pairwise (fun node node' => node.dest ≠ node'.dest) := by
  have hkeys : nodes.values.map NodeTransactionV1.dest = nodes.keys := by
    rw [values, map_map, AList.keys, List.keys]
    refine map_congr_left (fun entry hentry => ?_)
    exact (h.latestOf entry.1 entry.2 (AList.mem_lookup_iff.mpr hentry)).dest_eq
  have hnodup : (nodes.values.map NodeTransactionV1.dest).Nodup := by
    rw [hkeys]
    exact nodes.keys_nodup
  exact pairwise_map.mp hnodup

theorem StateOf.of_mem_values (h : StateOf txns nodes) (hmem : node ∈ nodes.values) :
    LatestOf txns node.dest node := by
  obtain ⟨dest, hlookup⟩ := mem_values.mp hmem
  have hlatest := h.latestOf dest node hlookup
  rw [hlatest.dest_eq]
  exact hlatest

/-- The two nodes are not taken under one alias. -/
def NamedApart (crates : NodeCrates) (node node' : NodeTransactionV1) : Prop :=
  ∀ taken, okNode (nodeAndRemote crates node) = some taken →
    ∀ taken', okNode (nodeAndRemote crates node') = some taken' → taken.1.1 ≠ taken'.1.1

theorem NamedApart.symm {node' : NodeTransactionV1} (h : NamedApart crates node node') :
    NamedApart crates node' node :=
  fun taken htaken taken' htaken' heq => h taken' htaken' taken htaken heq.symm

/-- The aliases that are taken are all different when no two usable nodes share one. -/
theorem StateOf.nodup_names_iff (h : StateOf txns nodes) (order : IterationOrder) :
    ((((order.order nodes.values).map (nodeAndRemote crates)).filterMap okNode).map
        (fun taken => taken.1.1)).Nodup ↔
      ∀ t ∈ txns, ∀ t' ∈ txns, Usable crates txns t.dest → Usable crates txns t'.dest →
        t.nodeData.alias_ = t'.nodeData.alias_ → t.dest = t'.dest := by
  have hpairs : ((((order.order nodes.values).map (nodeAndRemote crates)).filterMap okNode).map
      (fun taken => taken.1.1)).Nodup ↔ nodes.values.Pairwise (NamedApart crates) := by
    rw [List.Nodup, pairwise_map, filterMap_map, pairwise_filterMap]
    exact (order.perm nodes.values).pairwise_iff NamedApart.symm
  have hsymm : Std.Symm (NamedApart crates) := ⟨fun _ _ => NamedApart.symm⟩
  rw [hpairs]
  constructor
  · intro hpairwise t ht t' ht' husable husable' halias
    by_contra hdest
    obtain ⟨node, hlookup⟩ := h.known t ht
    obtain ⟨node', hlookup'⟩ := h.known t' ht'
    have hlatest := h.latestOf _ node hlookup
    have hlatest' := h.latestOf _ node' hlookup'
    have hne : node ≠ node' := by
      rintro rfl
      exact hdest (hlatest.dest_eq.symm.trans hlatest'.dest_eq)
    obtain ⟨-, key, ip, port, verkey, -, -, -, -, hok⟩ | ⟨hnot, -⟩ :=
      @nodeAndRemote_cases crates _ _ _ hlatest
    · obtain ⟨-, key', ip', port', verkey', -, -, -, -, hok'⟩ | ⟨hnot, -⟩ :=
        @nodeAndRemote_cases crates _ _ _ hlatest'
      · refine hpairwise.forall (mem_values.mpr ⟨_, hlookup⟩)
          (mem_values.mpr ⟨_, hlookup'⟩) hne _ (congrArg okNode hok) _
          (congrArg okNode hok') ?_
        change node.nodeData.alias_ = node'.nodeData.alias_
        rw [← hlatest.aliases t ht rfl, ← hlatest'.aliases t' ht' rfl, halias]
      · exact hnot husable'
    · exact hnot husable
  · intro hunique
    refine h.pairwise_values.imp_of_mem ?_
    intro node node' hmem hmem' hdest taken htaken taken' htaken' heq
    have hlatest := h.of_mem_values hmem
    have hlatest' := h.of_mem_values hmem'
    obtain ⟨t, ht, htdest⟩ := hlatest.named
    obtain ⟨t', ht', htdest'⟩ := hlatest'.named
    obtain ⟨husable, key, ip, port, verkey, -, -, -, -, hok⟩ | ⟨-, err, herr⟩ :=
      @nodeAndRemote_cases crates _ _ _ hlatest
    · obtain ⟨husable', key', ip', port', verkey', -, -, -, -, hok'⟩ | ⟨-, err, herr⟩ :=
        @nodeAndRemote_cases crates _ _ _ hlatest'
      · rw [hok] at htaken
        rw [hok'] at htaken'
        cases htaken
        cases htaken'
        apply hdest
        rw [← htdest, ← htdest']
        refine hunique t ht t' ht' (by rw [htdest]; exact husable)
          (by rw [htdest']; exact husable') ?_
        rw [hlatest.aliases t ht htdest, hlatest'.aliases t' ht' htdest']
        exact heq
      · rw [herr] at htaken'
        cases htaken'
    · rw [herr] at htaken
      cases htaken

theorem StateOf.carries (h : StateOf txns nodes) (order : IterationOrder)
    (hnodup : ((((order.order nodes.values).map (nodeAndRemote crates)).filterMap okNode).map
      (fun taken => taken.1.1)).Nodup)
    {remote : RemoteNode} (hremote : remote ∈
      (((order.order nodes.values).map (nodeAndRemote crates)).foldl takeNode (∅, [])).2) :
    Carries crates txns
      (((order.order nodes.values).map (nodeAndRemote crates)).foldl takeNode (∅, [])).1
      remote := by
  obtain ⟨hremotes, -, hlookup⟩ :=
    foldl_takeNode ((order.order nodes.values).map (nodeAndRemote crates))
  rw [hremotes] at hremote
  obtain ⟨taken, htaken, rfl⟩ := mem_map.mp hremote
  have hentry := hlookup hnodup taken htaken
  obtain ⟨res, hres, hok⟩ := mem_filterMap.mp htaken
  obtain ⟨node, hnode, rfl⟩ := mem_map.mp hres
  have hlatest := h.of_mem_values (order.mem_order.mp hnode)
  obtain ⟨-, key, ip, port, verkey, hkey, hip, hport, hbls, heq⟩ | ⟨-, err, herr⟩ :=
    @nodeAndRemote_cases crates _ _ _ hlatest
  · rw [heq] at hok
    cases hok
    exact ⟨node.dest, key, ip, port, hlatest.named, hlatest.aliases, hkey, rfl, hip, hport, rfl,
      verkey, hentry, hbls⟩
  · rw [herr] at hok
    cases hok

theorem names_eq (results : List (IndyResult ((String × Option VerKey) × RemoteNode)))
    (h : ∀ taken ∈ results.filterMap okNode, taken.2.name = taken.1.1) :
    (results.foldl takeNode (∅, [])).2.map RemoteNode.name =
      (results.filterMap okNode).map (fun taken => taken.1.1) := by
  rw [(foldl_takeNode results).1, map_map]
  exact map_congr_left h

theorem StateOf.name_eq (h : StateOf txns nodes) (order : IterationOrder) :
    ∀ taken ∈ ((order.order nodes.values).map (nodeAndRemote crates)).filterMap okNode,
      taken.2.name = taken.1.1 := by
  intro taken htaken
  obtain ⟨res, hres, hok⟩ := mem_filterMap.mp htaken
  obtain ⟨node, hnode, rfl⟩ := mem_map.mp hres
  obtain ⟨-, key, ip, port, verkey, -, -, -, -, heq⟩ | ⟨-, err, herr⟩ :=
    @nodeAndRemote_cases crates _ _ _ (h.of_mem_values (order.mem_order.mp hnode))
  · rw [heq] at hok
    cases hok
    rfl
  · rw [herr] at hok
    cases hok

/-- The nodes and remotes of a ledger agree, and carry its latest values, unless a transaction names
its node by another alias or two usable nodes share one. -/
theorem getNodesAndRemotes_sound_iff (crates : NodeCrates) (protocolVersion : ℕ)
    (order : IterationOrder) (merkle : MerkleTree) :
    NodeListSound crates protocolVersion merkle.root.iter
        (getNodesAndRemotes crates protocolVersion order merkle) ↔
      AliasesKept crates protocolVersion merkle.root.iter ∧
        AliasesUnique crates protocolVersion merkle.root.iter := by
  rw [getNodesAndRemotes, buildNodeState]
  obtain ⟨nodes, hok, htaken, hkept, hstate⟩ | ⟨err, herr, htaken, hkept⟩ | ⟨hpanic, hkept⟩ :=
    @foldlM_addGenTxn_cases crates protocolVersion merkle.root.iter
  · rw [hok, ok_bind, NodeListSound, and_iff_right hkept, AliasesUnique,
      forall_prop_of_true htaken, ← hstate.nodup_names_iff order]
    have hnames := names_eq _ (@StateOf.name_eq crates _ _ hstate order)
    obtain ⟨-, hmem, -⟩ := foldl_takeNode ((order.order nodes.values).map (nodeAndRemote crates))
    rw [← hnames] at hmem
    have hlength := keys_length_eq_iff hmem
    rw [length_map] at hlength
    rw [← hnames, ← hlength]
    constructor
    · rintro ⟨-, hcount, -⟩
      exact hcount
    · intro hcount
      refine ⟨hmem, hcount, fun remote hremote => ?_⟩
      have hnodup := hlength.mp hcount
      rw [hnames] at hnodup
      exact hstate.carries order hnodup hremote
  · rw [herr]
    exact iff_of_true trivial ⟨hkept, fun h => absurd h htaken⟩
  · rw [hpanic]
    exact iff_of_false id (fun h => hkept h.1)

/-! ### Aliases -/

/-- A transaction of a validator with a client address. -/
def validatorTxn (dest nodeAlias : String) : NodeTransactionV1 :=
  ⟨⟨"0", none, ⟨⟨nodeAlias, some "10.0.0.1", some 9702, none, none, some ["VALIDATOR"], none, none⟩,
    dest, none⟩, ⟨none, ""⟩⟩, ⟨none, none, none⟩, ⟨none, none⟩, "1"⟩

/-- A reader of three transactions, of which the first two are for one node. -/
def aliasCrates : NodeCrates where
  base58 := Crypto.rustBase58
  fromSlice item :=
    match item with
    | [0] => some (.nodeTransactionV1 (validatorTxn "11111111111111111111111111111111" "Node1"))
    | [1] => some (.nodeTransactionV1 (validatorTxn "11111111111111111111111111111111" "Node2"))
    | [2] => some (.nodeTransactionV1 (validatorTxn "11111111111111111111111111111112" "Node1"))
    | _ => none
  vkToCurve25519 key := key
  verKeyFromBytes key := some key

def treeOf (items : List Bytes) : MerkleTree :=
  ⟨Ledger.Tree.ofLeaves (fun b => b) items, 1, items.length, 1⟩

/-- The numbers of entries of the map and of the list. -/
def entryCounts (found : Nodes × List RemoteNode) : ℕ × ℕ := (found.1.keys.length, found.2.length)

/-- A new alias for a node aborts the thread, and two nodes of one alias are one node and two
remotes. -/
theorem aliases_diverge :
    getNodesAndRemotes aliasCrates 2 IterationOrder.inserted (treeOf [[0], [1]]) = .panic ∧
    entryCounts <$> getNodesAndRemotes aliasCrates 2 IterationOrder.inserted
      (treeOf [[0], [2]]) = .ok (1, 2) := by
  constructor
  · have hpanic : entryCounts <$> getNodesAndRemotes aliasCrates 2 IterationOrder.inserted
        (treeOf [[0], [1]]) = .panic := by
      decide +kernel
    exact map_eq_panic_iff.mp hpanic
  · decide +kernel

end IndySdk.Pool
