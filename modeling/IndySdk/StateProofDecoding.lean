import IndySdk.StateProofNode
import IndySdk.Depth

/-!
# Which bytes decode to a node

Decoding goes through a list of two or of seventeen values in their order. It aborts exactly where
it comes to a pair whose path is empty, with everything before it readable.
-/

namespace IndySdk.Pool.StateProof

open Outcome List

namespace Node

/-- The bytes of a node, as far as it is decoded. -/
inductive Readable (rlp : Rlp) : Bytes → Prop where
  | leaf {bytes path value : Bytes} {flags : UInt8} (hlist : rlp.prototype bytes = some (.list 2))
    (hpath : valueAt rlp bytes 0 = .ok path) (hflags : path.head? = some flags)
    (hleaf : flags &&& isLeafMask = isLeafMask) (hvalue : valueAt rlp bytes 1 = .ok value) :
    Readable rlp bytes
  | extension {bytes path cur : Bytes} {flags : UInt8}
    (hlist : rlp.prototype bytes = some (.list 2)) (hpath : valueAt rlp bytes 0 = .ok path)
    (hflags : path.head? = some flags) (hinner : flags &&& isLeafMask = 0x00)
    (hcur : rlp.item bytes 1 = some cur) (hread : Readable rlp cur) : Readable rlp bytes
  | full {bytes last : Bytes} (hlist : rlp.prototype bytes = some (.list 17))
    (children : ℕ → Bytes) (hchildren : ∀ i < 16, rlp.item bytes i = some (children i))
    (hread : ∀ i < 16, rlp.prototype (children i) ≠ some (.data 0) → Readable rlp (children i))
    (hlast : rlp.item bytes 16 = some last)
    (hvalue : rlp.isEmpty last = false → ∃ value, rlp.asVal last = some value) :
    Readable rlp bytes
  | hash {bytes digest : Bytes} (hdata : rlp.prototype bytes = some (.data 32))
    (hdigest : rlp.asVal bytes = some digest) : Readable rlp bytes

/-- Decoding comes to a pair that has no path. -/
inductive EmptyPath (rlp : Rlp) : Bytes → Prop where
  | pair {bytes : Bytes} (hlist : rlp.prototype bytes = some (.list 2))
    (hpath : valueAt rlp bytes 0 = .ok []) : EmptyPath rlp bytes
  | extension {bytes path cur : Bytes} {flags : UInt8}
    (hlist : rlp.prototype bytes = some (.list 2)) (hpath : valueAt rlp bytes 0 = .ok path)
    (hflags : path.head? = some flags) (hinner : flags &&& isLeafMask = 0x00)
    (hcur : rlp.item bytes 1 = some cur) (hempty : EmptyPath rlp cur) : EmptyPath rlp bytes
  | full {bytes : Bytes} (hlist : rlp.prototype bytes = some (.list 17)) {i : ℕ} (hi : i < 16)
    (children : ℕ → Bytes) (hchildren : ∀ j ≤ i, rlp.item bytes j = some (children j))
    (hread : ∀ j < i, rlp.prototype (children j) ≠ some (.data 0) → Readable rlp (children j))
    (hempty : EmptyPath rlp (children i)) : EmptyPath rlp bytes

/-- The nodes that decoding yields: full digests, and a path in every pair. -/
inductive WellFormed : Node → Prop where
  | leaf {path value : Bytes} (hpath : path ≠ []) : WellFormed (.leaf path value)
  | extension {path : Bytes} {next : Node} (hpath : path ≠ []) (hnext : WellFormed next) :
    WellFormed (.extension path next)
  | full {nodes : Nibble → Option Node} {value : Option Bytes}
    (hnodes : ∀ i next, nodes i = some next → WellFormed next) : WellFormed (.full nodes value)
  | hash {digest : Bytes} (hdigest : digest.length = hashSize) : WellFormed (.hash digest)

theorem EmptyPath.isList {rlp : Rlp} {bytes : Bytes} (h : EmptyPath rlp bytes) :
    rlp.prototype bytes = some (.list 2) ∨ rlp.prototype bytes = some (.list 17) := by
  cases h with
  | pair hlist _ => exact .inl hlist
  | extension hlist _ _ _ _ _ => exact .inl hlist
  | full hlist _ _ _ _ _ => exact .inr hlist

theorem Readable.hasPrototype {rlp : Rlp} {bytes : Bytes} (h : Readable rlp bytes) :
    ∃ proto, rlp.prototype bytes = some proto := by
  cases h with
  | leaf hlist _ _ _ _ => exact ⟨_, hlist⟩
  | extension hlist _ _ _ _ _ => exact ⟨_, hlist⟩
  | full hlist _ _ _ _ _ => exact ⟨_, hlist⟩
  | hash hdata _ => exact ⟨_, hdata⟩

/-- One child of a full node; an empty value stands for no child. -/
def childAt (rlp : Rlp) (depth : ℕ) (bytes : Bytes) (i : ℕ) :
    Outcome DecoderError (Option Node) := do
  let cur ← ofOption .rlp (rlp.item bytes i)
  match rlp.prototype cur with
  | none => .err .rlp
  | some (.data 0) => pure none
  | some _ => some <$> decode rlp depth cur

/-- The value that a full node holds itself. -/
def lastValue (rlp : Rlp) (bytes : Bytes) : Outcome DecoderError (Option Bytes) := do
  let last ← ofOption .rlp (rlp.item bytes 16)
  if rlp.isEmpty last then pure none else some <$> ofOption .rlp (rlp.asVal last)

/-- What a pair is decoded to once its path is read. -/
def decodePair (rlp : Rlp) (depth : ℕ) (bytes path : Bytes) (flags : UInt8) :
    Outcome DecoderError Node :=
  if flags &&& isLeafMask = isLeafMask then do
    let value ← valueAt rlp bytes 1
    pure (.leaf path value)
  else if flags &&& isLeafMask = 0x00 then do
    let cur ← ofOption .rlp (rlp.item bytes 1)
    let next ← decode rlp depth cur
    pure (.extension path next)
  else .err (.custom "Path contains incorrect flags byte")

variable {rlp : Rlp} {bytes : Bytes} {depth : ℕ} {i : ℕ}

theorem decode_pair (hlist : rlp.prototype bytes = some (.list 2)) :
    decode rlp (depth + 1) bytes = valueAt rlp bytes 0 >>= fun path =>
      unwrap path.head? >>= fun flags => decodePair rlp depth bytes path flags := by
  rw [decode, hlist]
  rfl

theorem decode_full (hlist : rlp.prototype bytes = some (.list 17)) :
    decode rlp (depth + 1) bytes =
      (List.range 16).mapM (childAt rlp depth bytes) >>= fun nodes =>
        (fun value => .full (fun i => (nodes[i]?).getD none) value) <$> lastValue rlp bytes := by
  have hrange : (List.finRange 16 >>= fun i => pure (i : ℕ)) = List.range 16 := by decide
  rw [decode, hlist]
  simp only [hrange]
  refine congrArg (_ >>= ·) (funext (fun nodes => ?_))
  cases hlast : rlp.item bytes 16 with
  | none => simp [lastValue, hlast]
  | some last =>
    cases hempty : rlp.isEmpty last with
    | true => simp [lastValue, hlast, hempty]
    | false => cases hvalue : rlp.asVal last <;> simp [lastValue, hlast, hempty, hvalue]

theorem decode_hash (hdata : rlp.prototype bytes = some (.data 32)) :
    decode rlp (depth + 1) bytes = .hash <$> ofOption .rlp (rlp.asVal bytes) := by
  rw [decode, hdata]
  rfl

theorem decode_other (hpair : rlp.prototype bytes ≠ some (.list 2))
    (hfull : rlp.prototype bytes ≠ some (.list 17))
    (hhash : rlp.prototype bytes ≠ some (.data 32)) :
    ∃ e, ∀ depth, decode rlp (depth + 1) bytes = .err e := by
  simp only [decode]
  split
  · exact absurd ‹_› hpair
  · exact absurd ‹_› hfull
  · exact absurd ‹_› hhash
  · exact ⟨_, fun depth => rfl⟩
  · exact ⟨_, fun depth => rfl⟩

theorem childAt_of_item {cur : Bytes} (hcur : rlp.item bytes i = some cur) :
    childAt rlp depth bytes i = match rlp.prototype cur with
      | none => .err .rlp
      | some (.data 0) => .ok none
      | some _ => some <$> decode rlp depth cur := by
  rw [childAt, hcur]
  rfl

theorem childAt_of_noItem (hcur : rlp.item bytes i = none) :
    childAt rlp depth bytes i = .err .rlp := by
  rw [childAt, hcur]
  rfl

theorem childAt_eq_ok {child : Option Node} (h : childAt rlp depth bytes i = .ok child) :
    ∃ cur, rlp.item bytes i = some cur ∧
      ((rlp.prototype cur = some (.data 0) ∧ child = none) ∨
        ∃ next, decode rlp depth cur = .ok next ∧ child = some next) := by
  cases hcur : rlp.item bytes i with
  | none =>
    rw [childAt_of_noItem hcur] at h
    cases h
  | some cur =>
    rw [childAt_of_item hcur] at h
    refine ⟨cur, rfl, ?_⟩
    split at h
    · cases h
    · cases h
      exact .inl ⟨‹_›, rfl⟩
    · obtain ⟨next, hnext, rfl⟩ := map_eq_ok_iff.mp h
      exact .inr ⟨next, hnext, rfl⟩

theorem childAt_eq_panic (h : childAt rlp depth bytes i = .panic) :
    ∃ cur, rlp.item bytes i = some cur ∧ decode rlp depth cur = .panic := by
  cases hcur : rlp.item bytes i with
  | none =>
    rw [childAt_of_noItem hcur] at h
    cases h
  | some cur =>
    rw [childAt_of_item hcur] at h
    refine ⟨cur, rfl, ?_⟩
    split at h
    · cases h
    · cases h
    · exact map_eq_panic_iff.mp h

theorem valueAt_ne_panic : valueAt rlp bytes i ≠ .panic := by
  rw [valueAt]
  cases rlp.item bytes i with
  | none => exact err_ne_panic _
  | some cur => cases h : rlp.asVal cur <;> simp [h]

theorem lastValue_eq_ok_iff {last : Bytes} (hlast : rlp.item bytes 16 = some last) :
    (∃ value, lastValue rlp bytes = .ok value) ↔
      (rlp.isEmpty last = false → ∃ value, rlp.asVal last = some value) := by
  cases hempty : rlp.isEmpty last with
  | true => simp [lastValue, hlast, hempty]
  | false => cases hvalue : rlp.asVal last <;> simp [lastValue, hlast, hempty, hvalue]

theorem lastValue_ne_panic : lastValue rlp bytes ≠ .panic := by
  rw [lastValue]
  cases hlast : rlp.item bytes 16 with
  | none => exact err_ne_panic _
  | some last =>
    cases hempty : rlp.isEmpty last with
    | true => simp [hempty]
    | false => cases hvalue : rlp.asVal last <;> simp [hempty, hvalue]

theorem mem_before_of_range {n j : ℕ} {before after : List ℕ}
    (h : List.range n = before ++ i :: after) : j ∈ before ↔ j < i := by
  have hsorted : (before ++ i :: after).Pairwise (· < ·) := h ▸ pairwise_lt_range
  obtain ⟨-, hafter, hbefore⟩ := pairwise_append.mp hsorted
  constructor
  · intro hj
    exact hbefore j hj i mem_cons_self
  · intro hj
    have hi : i ∈ List.range n := h ▸ mem_append_right before mem_cons_self
    have hmem : j ∈ List.range n := mem_range.mpr (hj.trans (mem_range.mp hi))
    rw [h] at hmem
    rcases mem_append.mp hmem with hbefore | hrest
    · exact hbefore
    · rcases mem_cons.mp hrest with rfl | hrest
      · exact absurd hj (Nat.lt_irrefl j)
      · exact absurd ((pairwise_cons.mp hafter).1 j hrest) (Nat.lt_asymm hj)

/-- What is decoded is readable, and a node whose pairs have paths. -/
theorem readable_of_decode {node : Node} (h : decode rlp depth bytes = .ok node) :
    Readable rlp bytes := by
  induction depth generalizing bytes node with
  | zero => cases h
  | succ depth ih =>
    by_cases hpair : rlp.prototype bytes = some (.list 2)
    · rw [decode_pair hpair] at h
      obtain ⟨path, hpath, h⟩ := bind_eq_ok_iff.mp h
      obtain ⟨flags, hflags, h⟩ := bind_eq_ok_iff.mp h
      rw [unwrap_eq_ok] at hflags
      rw [decodePair] at h
      split_ifs at h with hleaf hinner
      · obtain ⟨value, hvalue, -⟩ := bind_eq_ok_iff.mp h
        exact .leaf hpair hpath hflags hleaf hvalue
      · obtain ⟨cur, hcur, h⟩ := bind_eq_ok_iff.mp h
        obtain ⟨next, hnext, -⟩ := bind_eq_ok_iff.mp h
        exact .extension hpair hpath hflags hinner (ofOption_eq_ok.mp hcur) (ih hnext)
    · by_cases hfull : rlp.prototype bytes = some (.list 17)
      · rw [decode_full hfull] at h
        obtain ⟨nodes, hnodes, h⟩ := bind_eq_ok_iff.mp h
        obtain ⟨value, hvalue, -⟩ := map_eq_ok_iff.mp h
        have hchild : ∀ i < 16, ∃ child, childAt rlp depth bytes i = .ok child :=
          fun i hi => (Outcome.exists_of_mapM hnodes (mem_range.mpr hi)).imp (fun _ h => h.2)
        have hitem : ∀ i < 16, ∃ cur, rlp.item bytes i = some cur ∧
            (rlp.prototype cur ≠ some (.data 0) → Readable rlp cur) := by
          intro i hi
          obtain ⟨child, hchild⟩ := hchild i hi
          obtain ⟨cur, hcur, hcase⟩ := childAt_eq_ok hchild
          refine ⟨cur, hcur, fun hdata => ?_⟩
          rcases hcase with ⟨hempty, -⟩ | ⟨next, hnext, -⟩
          · exact absurd hempty hdata
          · exact ih hnext
        choose! children hchildren hread using hitem
        obtain ⟨last, hlast, hvalue'⟩ := bind_eq_ok_iff.mp hvalue
        rw [ofOption_eq_ok] at hlast
        exact .full hfull children hchildren hread hlast
          ((lastValue_eq_ok_iff hlast).mp ⟨value, hvalue⟩)
      · by_cases hhash : rlp.prototype bytes = some (.data 32)
        · rw [decode_hash hhash] at h
          obtain ⟨digest, hdigest, -⟩ := map_eq_ok_iff.mp h
          exact .hash hhash (ofOption_eq_ok.mp hdigest)
        · obtain ⟨e, he⟩ := decode_other hpair hfull hhash
          rw [he] at h
          cases h

/-- What the decoder of values does with data of the size of a digest. -/
def FullDigests (rlp : Rlp) : Prop :=
  ∀ bytes digest, rlp.prototype bytes = some (.data hashSize) → rlp.asVal bytes = some digest →
    digest.length = hashSize

theorem wellFormed_of_decode (hdigests : FullDigests rlp) {node : Node}
    (h : decode rlp depth bytes = .ok node) : WellFormed node := by
  induction depth generalizing bytes node with
  | zero => cases h
  | succ depth ih =>
    by_cases hpair : rlp.prototype bytes = some (.list 2)
    · rw [decode_pair hpair] at h
      obtain ⟨path, hpath, h⟩ := bind_eq_ok_iff.mp h
      obtain ⟨flags, hflags, h⟩ := bind_eq_ok_iff.mp h
      have hne : path ≠ [] := by
        rintro rfl
        cases hflags
      rw [decodePair] at h
      split_ifs at h with hleaf hinner
      · obtain ⟨value, hvalue, h⟩ := bind_eq_ok_iff.mp h
        cases h
        exact .leaf hne
      · obtain ⟨cur, hcur, h⟩ := bind_eq_ok_iff.mp h
        obtain ⟨next, hnext, h⟩ := bind_eq_ok_iff.mp h
        cases h
        exact .extension hne (ih hnext)
    · by_cases hfull : rlp.prototype bytes = some (.list 17)
      · rw [decode_full hfull] at h
        obtain ⟨nodes, hnodes, h⟩ := bind_eq_ok_iff.mp h
        obtain ⟨value, hvalue, rfl⟩ := map_eq_ok_iff.mp h
        refine .full (fun i next hnext => ?_)
        have hmem : some next ∈ nodes := by
          cases hget : nodes[i]? with
          | none =>
            rw [hget] at hnext
            cases hnext
          | some child =>
            rw [hget, Option.getD_some] at hnext
            exact hnext ▸ mem_of_getElem? hget
        obtain ⟨j, -, hj⟩ := Outcome.mem_of_mapM hnodes hmem
        obtain ⟨cur, -, ⟨-, hnone⟩ | ⟨next', hdecode, hsome⟩⟩ := childAt_eq_ok hj
        · cases hnone
        · cases hsome
          exact ih hdecode
      · by_cases hhash : rlp.prototype bytes = some (.data 32)
        · rw [decode_hash hhash] at h
          obtain ⟨digest, hdigest, rfl⟩ := map_eq_ok_iff.mp h
          exact .hash (hdigests bytes digest hhash (ofOption_eq_ok.mp hdigest))
        · obtain ⟨e, he⟩ := decode_other hpair hfull hhash
          rw [he] at h
          cases h

/-- The values of a list are shorter than the list. -/
def ItemsShrink (rlp : Rlp) : Prop :=
  ∀ bytes i cur, rlp.item bytes i = some cur → cur.length < bytes.length

theorem childAt_of_decode {cur : Bytes} (hcur : rlp.item bytes i = some cur)
    (h : rlp.prototype cur ≠ some (.data 0) →
      Readable rlp cur ∧ ∃ next, decode rlp depth cur = .ok next) :
    ∃ child, childAt rlp depth bytes i = .ok child := by
  rw [childAt_of_item hcur]
  by_cases hdata : rlp.prototype cur = some (.data 0)
  · rw [hdata]
    exact ⟨none, rfl⟩
  · obtain ⟨hread, next, hnext⟩ := h hdata
    obtain ⟨proto, hproto⟩ := hread.hasPrototype
    refine ⟨some next, ?_⟩
    rw [hproto] at hdata ⊢
    split
    · contradiction
    · contradiction
    · rw [hnext]
      rfl

/-- Readable bytes decode at every depth above their length. -/
theorem decode_of_readable (hshrink : ItemsShrink rlp) (h : Readable rlp bytes)
    (hdepth : bytes.length < depth) : ∃ node, decode rlp depth bytes = .ok node := by
  induction h generalizing depth with
  | @leaf bytes path value flags hlist hpath hflags hleaf hvalue =>
    obtain ⟨depth, rfl⟩ := Nat.exists_eq_succ_of_ne_zero (Nat.ne_zero_of_lt hdepth)
    refine ⟨.leaf path value, ?_⟩
    rw [decode_pair hlist, hpath, ok_bind, hflags, unwrap_some, ok_bind,
      decodePair, if_pos hleaf, hvalue]
    rfl
  | @extension bytes path cur flags hlist hpath hflags hinner hcur hread ih =>
    obtain ⟨depth, rfl⟩ := Nat.exists_eq_succ_of_ne_zero (Nat.ne_zero_of_lt hdepth)
    have hlt := hshrink bytes 1 cur hcur
    obtain ⟨next, hnext⟩ := @ih depth (by omega)
    refine ⟨.extension path next, ?_⟩
    have hleaf : flags &&& isLeafMask ≠ isLeafMask := by
      rw [hinner]
      decide
    rw [decode_pair hlist, hpath, ok_bind, hflags, unwrap_some, ok_bind,
      decodePair, if_neg hleaf, if_pos hinner, hcur, ofOption_some, ok_bind, hnext]
    rfl
  | @full bytes last hlist children hchildren hread hlast hvalue ih =>
    obtain ⟨depth, rfl⟩ := Nat.exists_eq_succ_of_ne_zero (Nat.ne_zero_of_lt hdepth)
    have hchild : ∀ i ∈ List.range 16, ∃ child, childAt rlp depth bytes i = .ok child ∧ True := by
      intro i hi
      rw [mem_range] at hi
      have hlt := hshrink bytes i (children i) (hchildren i hi)
      have hread' : ∃ child, childAt rlp depth bytes i = .ok child :=
        childAt_of_decode (hchildren i hi) (fun hdata =>
          ⟨hread i hi hdata, ih i hi hdata (by omega)⟩)
      exact hread'.imp (fun child hchild => ⟨hchild, trivial⟩)
    obtain ⟨nodes, hnodes, -⟩ := Outcome.exists_mapM_eq hchild
    obtain ⟨value, hvalue⟩ := (lastValue_eq_ok_iff hlast).mpr hvalue
    refine ⟨.full (fun i => (((List.range 16).map nodes)[i]?).getD none) value, ?_⟩
    rw [decode_full hlist, hnodes, ok_bind, hvalue]
    rfl
  | @hash bytes digest hdata hdigest =>
    obtain ⟨depth, rfl⟩ := Nat.exists_eq_succ_of_ne_zero (Nat.ne_zero_of_lt hdepth)
    refine ⟨.hash digest, ?_⟩
    rw [decode_hash hdata, hdigest]
    rfl

/-- Decoding aborts wherever it comes to a pair without a path. -/
theorem decode_of_emptyPath (hshrink : ItemsShrink rlp) (h : EmptyPath rlp bytes)
    (hdepth : bytes.length < depth) : decode rlp depth bytes = .panic := by
  induction h generalizing depth with
  | @pair bytes hlist hpath =>
    obtain ⟨depth, rfl⟩ := Nat.exists_eq_succ_of_ne_zero (Nat.ne_zero_of_lt hdepth)
    rw [decode_pair hlist, hpath]
    rfl
  | @extension bytes path cur flags hlist hpath hflags hinner hcur hempty ih =>
    obtain ⟨depth, rfl⟩ := Nat.exists_eq_succ_of_ne_zero (Nat.ne_zero_of_lt hdepth)
    have hlt := hshrink bytes 1 cur hcur
    have hleaf : flags &&& isLeafMask ≠ isLeafMask := by
      rw [hinner]
      decide
    rw [decode_pair hlist, hpath, ok_bind, hflags, unwrap_some, ok_bind,
      decodePair, if_neg hleaf, if_pos hinner, hcur, ofOption_some, ok_bind,
      ih (by omega)]
    rfl
  | @full bytes hlist i hi children hchildren hread hempty ih =>
    obtain ⟨depth, rfl⟩ := Nat.exists_eq_succ_of_ne_zero (Nat.ne_zero_of_lt hdepth)
    have hlt : ∀ j ≤ i, (children j).length < depth := by
      intro j hj
      have hlt := hshrink bytes j (children j) (hchildren j hj)
      omega
    have hchild : childAt rlp depth bytes i = .panic := by
      rw [childAt_of_item (hchildren i (Nat.le_refl i))]
      rcases hempty.isList with hproto | hproto
      · rw [hproto, ih (hlt i (Nat.le_refl i))]
        rfl
      · rw [hproto, ih (hlt i (Nat.le_refl i))]
        rfl
    obtain ⟨before, after, hsplit⟩ := append_of_mem (mem_range.mpr hi)
    have hpanic : (List.range 16).mapM (childAt rlp depth bytes) = .panic := by
      refine mapM_eq_panic_iff.mpr ⟨before, i, after, hsplit, fun j hj => ?_, hchild⟩
      have hji : j < i := (mem_before_of_range hsplit).mp hj
      exact childAt_of_decode (hchildren j hji.le) (fun hdata =>
        ⟨hread j hji hdata, decode_of_readable hshrink (hread j hji hdata) (hlt j hji.le)⟩)
    rw [decode_full hlist, hpanic]
    rfl

theorem emptyPath_of_children (hshrink : ItemsShrink rlp)
    (hfull : rlp.prototype bytes = some (.list 17))
    (h : (List.range 16).mapM (childAt rlp depth bytes) = .panic)
    (hcurs : ∀ cur : Bytes, cur.length < bytes.length → decode rlp depth cur = .panic →
      EmptyPath rlp cur) : EmptyPath rlp bytes := by
  obtain ⟨before, i, after, hsplit, hbefore, hi⟩ := mapM_eq_panic_iff.mp h
  have hmem : i ∈ List.range 16 := hsplit ▸ mem_append_right before mem_cons_self
  have hitem : ∀ j < i, ∃ cur, rlp.item bytes j = some cur ∧
      (rlp.prototype cur ≠ some (.data 0) → Readable rlp cur) := by
    intro j hj
    obtain ⟨child, hchild⟩ := hbefore j ((mem_before_of_range hsplit).mpr hj)
    obtain ⟨cur, hcur, hcase⟩ := childAt_eq_ok hchild
    refine ⟨cur, hcur, fun hdata => ?_⟩
    rcases hcase with ⟨hempty, -⟩ | ⟨next, hnext, -⟩
    · exact absurd hempty hdata
    · exact readable_of_decode hnext
  choose! children hchildren hread using hitem
  obtain ⟨cur, hcur, hpanic⟩ := childAt_eq_panic hi
  refine .full hfull (mem_range.mp hmem) (Function.update children i cur) ?_ ?_ ?_
  · intro j hj
    by_cases hji : j = i
    · rw [hji, Function.update_self, hcur]
    · rw [Function.update_of_ne hji, hchildren j (Nat.lt_of_le_of_ne hj hji)]
  · intro j hj
    rw [Function.update_of_ne hj.ne]
    exact hread j hj
  · rw [Function.update_self]
    exact hcurs cur (hshrink bytes i cur hcur) hpanic

/-- With a depth above the length, nothing else makes decoding abort. -/
theorem emptyPath_of_decode (hshrink : ItemsShrink rlp) (hdepth : bytes.length < depth)
    (h : decode rlp depth bytes = .panic) : EmptyPath rlp bytes := by
  induction depth generalizing bytes with
  | zero => exact absurd hdepth (Nat.not_lt_zero _)
  | succ depth ih =>
    by_cases hpair : rlp.prototype bytes = some (.list 2)
    · rw [decode_pair hpair] at h
      rcases bind_eq_panic_iff.mp h with hpath | ⟨path, hpath, h⟩
      · exact absurd hpath valueAt_ne_panic
      · cases hflags : path.head? with
        | none =>
          rw [head?_eq_none_iff] at hflags
          exact .pair hpair (hflags ▸ hpath)
        | some flags =>
          rw [hflags, unwrap_some, ok_bind, decodePair] at h
          split_ifs at h with hleaf hinner
          · rcases bind_eq_panic_iff.mp h with hvalue | ⟨value, -, hpure⟩
            · exact absurd hvalue valueAt_ne_panic
            · cases hpure
          · cases hcur : rlp.item bytes 1 with
            | none =>
              rw [hcur] at h
              cases h
            | some cur =>
              rw [hcur, ofOption_some, ok_bind] at h
              have hlt := hshrink bytes 1 cur hcur
              rcases bind_eq_panic_iff.mp h with hnext | ⟨next, -, hpure⟩
              · exact .extension hpair hpath hflags hinner hcur (ih (by omega) hnext)
              · cases hpure
    · by_cases hfull : rlp.prototype bytes = some (.list 17)
      · rw [decode_full hfull] at h
        rcases bind_eq_panic_iff.mp h with hnodes | ⟨nodes, -, hvalue⟩
        · exact emptyPath_of_children hshrink hfull hnodes (fun cur hlt hcur => ih (by omega) hcur)
        · exact absurd (map_eq_panic_iff.mp hvalue) lastValue_ne_panic
      · by_cases hhash : rlp.prototype bytes = some (.data 32)
        · rw [decode_hash hhash] at h
          have hval := map_eq_panic_iff.mp h
          cases hdigest : rlp.asVal bytes with
          | none =>
            rw [hdigest] at hval
            cases hval
          | some digest =>
            rw [hdigest] at hval
            cases hval
        · obtain ⟨e, he⟩ := decode_other hpair hfull hhash
          rw [he] at h
          cases h

theorem decode_succ (hshrink : ItemsShrink rlp) (hdepth : bytes.length < depth) :
    decode rlp (depth + 1) bytes = decode rlp depth bytes := by
  induction depth generalizing bytes with
  | zero => exact absurd hdepth (Nat.not_lt_zero _)
  | succ depth ih =>
    have hcurs : ∀ i cur, rlp.item bytes i = some cur →
        decode rlp (depth + 1) cur = decode rlp depth cur := by
      intro i cur hcur
      have hlt := hshrink bytes i cur hcur
      exact ih (by omega)
    by_cases hpair : rlp.prototype bytes = some (.list 2)
    · rw [decode_pair hpair, decode_pair hpair]
      refine congrArg (_ >>= ·) (funext (fun path => ?_))
      refine congrArg (_ >>= ·) (funext (fun flags => ?_))
      rw [decodePair, decodePair]
      cases hcur : rlp.item bytes 1 with
      | none => rfl
      | some cur => rw [ofOption_some, ok_bind, ok_bind, hcurs 1 cur hcur]
    · by_cases hfull : rlp.prototype bytes = some (.list 17)
      · have hchildren : childAt rlp (depth + 1) bytes = childAt rlp depth bytes := by
          funext i
          cases hcur : rlp.item bytes i with
          | none => rw [childAt_of_noItem hcur, childAt_of_noItem hcur]
          | some cur => rw [childAt_of_item hcur, childAt_of_item hcur, hcurs i cur hcur]
        rw [decode_full hfull, decode_full hfull, hchildren]
      · by_cases hhash : rlp.prototype bytes = some (.data 32)
        · rw [decode_hash hhash, decode_hash hhash]
        · obtain ⟨e, he⟩ := decode_other hpair hfull hhash
          rw [he, he]

end Node

end IndySdk.Pool.StateProof
