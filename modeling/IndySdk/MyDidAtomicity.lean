import IndySdk.MyDids
import IndySdk.PackRoundTrip

/-!
# When the commands about one's own DIDs are atomic

Each command checks for one of the records that it writes, before it writes the first. A command
that fails at a later write leaves the earlier one behind. Whatever is left behind, the key of each
DID is in the wallet.
-/

namespace IndySdk.MyDids

open Crypto Stateful Outcome AList
open DidResolution (Did)

/-- The failures because a record exists or is missing. -/
def RecordError (e : IndyError) : Prop :=
  e.kind = .didAlreadyExists ∨ e.kind = .walletItemAlreadyExists ∨ e.kind = .walletItemNotFound

variable (crates : PackCrates)

/-- The command writes its first record and fails at the second: a new DID has a key that is stored
already; a DID is given a new key while it has a temporary one; and, in a wallet where a temporary
record stands under another name than its own, it is applied but not found for its removal. -/
def HalfDone (w : WalletRecords) : Command → Prop
  | .createAndStoreMyDid random myDidInfo =>
    ∃ did key, createMyDid crates random myDidInfo = .ok (did, key) ∧ did.did ∉ w.dids ∧
      key.verkey ∈ w.keys
  | .replaceKeysStart random keyInfo myDid =>
    validateDid crates.codec.base58 myDid = .ok () ∧ ∃ did key, w.dids.lookup myDid = some did ∧
      createKey crates random keyInfo = .ok key ∧ key.verkey ∉ w.keys ∧
        did.did ∈ w.temporaryDids
  | .replaceKeysApply myDid =>
    validateDid crates.codec.base58 myDid = .ok () ∧ ∃ did tempDid other,
      w.dids.lookup myDid = some did ∧ w.temporaryDids.lookup did.did = some tempDid ∧
        w.dids.lookup tempDid.did = some other ∧ other ≠ Did.ofTemporary tempDid ∧
          tempDid.did ∉ w.temporaryDids
  | .createKey _ _ => False

variable {crates}

section

variable {α : Type} [NamedType α] {name : String} {object : α} {w : WalletRecords}

theorem addIndyObject_of_mem (h : name ∈ (NamedType.records w : AssocMap String α)) :
    addIndyObject name object w =
      (.err (errMsg .walletItemAlreadyExists "Wallet item already exists with type: _, id: _"
        [addPrefix α, name]), w) :=
  if_pos h

theorem addIndyObject_of_notMem (h : name ∉ (NamedType.records w : AssocMap String α)) :
    addIndyObject name object w =
      (.ok (), NamedType.setRecords ((NamedType.records w).insert name object) w) :=
  if_neg h

end

theorem recordError_alreadyExists (msg : String) (args : List String) :
    RecordError (errMsg .walletItemAlreadyExists msg args) :=
  Or.inr (.inl rfl)

variable {name : String}

theorem insert_ne {α : Type} {records : AssocMap String α} (object : α) (h : name ∉ records) :
    records.insert name object ≠ records := by
  intro hsame
  apply h
  rw [← hsame]
  exact (mem_insert records).mpr (.inl rfl)

/-! ### Each command -/

theorem atomicAt_add_add {α β : Type} [NamedType α] [NamedType β] {name name' : String} {object : α}
    {object' : β} {γ : Type} {reply : γ} {w : WalletRecords}
    (hother : ∀ m : AssocMap String α,
      (NamedType.records (NamedType.setRecords m w) : AssocMap String β) = NamedType.records w)
    (hchange : ∀ m : AssocMap String α, NamedType.setRecords m w = w → m = NamedType.records w) :
    Stateful.AtomicAt RecordError (do
        addIndyObject name object
        addIndyObject name' object'
        pure reply) w ↔
      ¬ (name ∉ (NamedType.records w : AssocMap String α) ∧
        name' ∈ (NamedType.records w : AssocMap String β)) := by
  by_cases hname : name ∈ (NamedType.records w : AssocMap String α)
  · have hfirst := @addIndyObject_of_mem α _ name object w hname
    refine iff_of_true (atomicAt_of_same ?_) (fun h => h.1 hname)
    rw [bind_err hfirst]
  · have hfirst := @addIndyObject_of_notMem α _ name object w hname
    rw [Stateful.AtomicAt, bind_ok hfirst, and_iff_right hname]
    have hmem := hother ((NamedType.records w).insert name object)
    by_cases hname' : name' ∈ (NamedType.records w : AssocMap String β)
    · have hsecond := @addIndyObject_of_mem β _ name' object' _ (hmem ▸ hname')
      rw [bind_err hsecond]
      refine iff_of_false (fun h => ?_) (not_not.mpr hname')
      exact insert_ne object hname (hchange _ (h _ rfl (recordError_alreadyExists _ _)))
    · have hsecond := @addIndyObject_of_notMem β _ name' object' _ (hmem ▸ hname')
      rw [bind_ok hsecond]
      exact iff_of_true (fun e he => absurd he.symm (err_ne_ok e reply)) hname'

theorem createAndStoreMyDid_atomic_iff (w : WalletRecords) (random : Seed) (myDidInfo : MyDidInfo) :
    Stateful.AtomicAt RecordError (createAndStoreMyDid crates random myDidInfo) w ↔
      ¬ HalfDone crates w (.createAndStoreMyDid random myDidInfo) := by
  have hstored : ∀ (did : Did) (key : Key), Stateful.AtomicAt RecordError (do
      let found ← read (recordExists Did did.did)
      if found then read (fun _ => .err (errMsg .didAlreadyExists "_" [did.did]))
      else do
        addIndyObject did.did did
        addIndyObject key.verkey key
        pure (did.did, did.verkey)) w ↔ ¬ (did.did ∉ w.dids ∧ key.verkey ∈ w.keys) := by
    intro did key
    rw [atomicAt_read_bind]
    have hfound : recordExists Did did.did w = .ok (decide (did.did ∈ w.dids)) := rfl
    rw [hfound]
    by_cases hdid : did.did ∈ w.dids
    · refine iff_of_true ?_ (fun h => h.1 hdid)
      intro found hread
      rw [← Outcome.ok.inj hread, decide_eq_true hdid, if_pos rfl]
      exact atomicAt_of_same rfl
    · have hwrites := @atomicAt_add_add Did Key _ _ did.did key.verkey did key _
        (did.did, did.verkey)
        w (fun _ => rfl) (fun m h => congrArg WalletRecords.dids h)
      constructor
      · intro h
        have hadd := h _ rfl
        rw [decide_eq_false hdid, if_neg Bool.false_ne_true] at hadd
        exact hwrites.mp hadd
      · intro h found hread
        rw [← Outcome.ok.inj hread, decide_eq_false hdid, if_neg Bool.false_ne_true]
        exact hwrites.mpr h
  unfold createAndStoreMyDid HalfDone
  rw [atomicAt_read_bind]
  constructor
  · rintro h ⟨did, key, hcreate, hhalf⟩
    exact (hstored did key).mp (h (did, key) hcreate) hhalf
  · rintro h ⟨did, key⟩ hcreate
    exact (hstored did key).mpr (fun hhalf => h ⟨did, key, hcreate, hhalf⟩)

theorem replaceKeysStart_atomic_iff (w : WalletRecords) (random : Seed) (keyInfo : KeyInfo)
    (myDid : String) :
    Stateful.AtomicAt RecordError (replaceKeysStart crates random keyInfo myDid) w ↔
      ¬ HalfDone crates w (.replaceKeysStart random keyInfo myDid) := by
  unfold replaceKeysStart HalfDone
  simp only [atomicAt_read_bind, getIndyObject_eq_ok]
  have hwrites : ∀ (did : Did) (key : Key), Stateful.AtomicAt RecordError (do
      addIndyObject key.verkey key
      addIndyObject did.did (⟨did.did, key.verkey⟩ : TemporaryDid)
      pure key.verkey) w ↔ ¬ (key.verkey ∉ w.keys ∧ did.did ∈ w.temporaryDids) :=
    fun did key => atomicAt_add_add (fun _ => rfl) (fun m h => congrArg WalletRecords.keys h)
  constructor
  · rintro h ⟨hvalid, did, key, hdid, hkey, hhalf⟩
    exact (hwrites did key).mp (h () hvalid did hdid key hkey) hhalf
  · intro h _ hvalid did hdid key hkey
    exact (hwrites did key).mpr (fun hhalf => h ⟨hvalid, did, key, hdid, hkey, hhalf⟩)

theorem updateIndyObject_of_mem {α : Type} [NamedType α] {name : String} {object : α}
    {w : WalletRecords} (h : name ∈ (NamedType.records w : AssocMap String α)) :
    updateIndyObject name object w =
      (.ok (), NamedType.setRecords ((NamedType.records w).replace name object) w) :=
  if_pos h

theorem updateIndyObject_of_notMem {α : Type} [NamedType α] {name : String} {object : α}
    {w : WalletRecords} (h : name ∉ (NamedType.records w : AssocMap String α)) :
    updateIndyObject name object w =
      (.err (errMsg .walletItemNotFound "Item to update not found"), w) :=
  if_neg h

theorem deleteIndyRecord_of_mem {α : Type} [NamedType α] {name : String} {w : WalletRecords}
    (h : name ∈ (NamedType.records w : AssocMap String α)) :
    deleteIndyRecord α name w =
      (.ok (), NamedType.setRecords ((NamedType.records w : AssocMap String α).erase name) w) :=
  if_pos h

theorem deleteIndyRecord_of_notMem {α : Type} [NamedType α] {name : String} {w : WalletRecords}
    (h : name ∉ (NamedType.records w : AssocMap String α)) :
    deleteIndyRecord α name w =
      (.err (errMsg .walletItemNotFound "Wallet item not found with type: _, id: _"
        [addPrefix α, name]), w) :=
  if_neg h

theorem replaceKeysApply_atomic_iff (w : WalletRecords) (myDid : String) :
    Stateful.AtomicAt RecordError (replaceKeysApply crates myDid) w ↔
      ¬ HalfDone crates w (.replaceKeysApply myDid) := by
  unfold replaceKeysApply HalfDone
  simp only [atomicAt_read_bind, getIndyObject_eq_ok]
  have hwrites : ∀ tempDid : TemporaryDid, Stateful.AtomicAt RecordError (do
      updateIndyObject tempDid.did (Did.ofTemporary tempDid)
      deleteIndyRecord TemporaryDid tempDid.did) w ↔
        ¬ ∃ other, w.dids.lookup tempDid.did = some other ∧ other ≠ Did.ofTemporary tempDid ∧
          tempDid.did ∉ w.temporaryDids := by
    intro tempDid
    cases hlookup : w.dids.lookup tempDid.did with
    | none =>
      have hupdate := @updateIndyObject_of_notMem Did _ tempDid.did (Did.ofTemporary tempDid) w
        (lookup_eq_none.mp hlookup)
      refine iff_of_true (atomicAt_of_same ?_) (fun h => ?_)
      · rw [bind_err hupdate]
      · obtain ⟨other, hother, -⟩ := h
        cases hother
    | some other =>
      have hupdate := @updateIndyObject_of_mem Did _ tempDid.did (Did.ofTemporary tempDid) w
        (lookup_isSome.mp (by rw [show NamedType.records w = w.dids from rfl, hlookup]; rfl))
      rw [Stateful.AtomicAt, bind_ok hupdate]
      by_cases htemp : tempDid.did ∈ w.temporaryDids
      · have hdelete := @deleteIndyRecord_of_mem TemporaryDid _ tempDid.did
          (NamedType.setRecords (w.dids.replace tempDid.did (Did.ofTemporary tempDid)) w) htemp
        rw [show NamedType.records w = w.dids from rfl, hdelete]
        refine iff_of_true (fun e he => absurd he.symm (err_ne_ok e ())) (fun h => ?_)
        obtain ⟨other, -, -, hnot⟩ := h
        exact hnot htemp
      · have hdelete := @deleteIndyRecord_of_notMem TemporaryDid _ tempDid.did
          (NamedType.setRecords (w.dids.replace tempDid.did (Did.ofTemporary tempDid)) w) htemp
        rw [show NamedType.records w = w.dids from rfl, hdelete]
        constructor
        · rintro h ⟨_, ⟨⟩, hne, -⟩
          have hsame : w.dids.replace tempDid.did (Did.ofTemporary tempDid) = w.dids :=
            congrArg WalletRecords.dids (h _ rfl (.inr (.inr rfl)))
          have hreplaced := AssocMap.lookup_replace w.dids tempDid.did tempDid.did
            (Did.ofTemporary tempDid)
          rw [hsame, if_pos rfl, hlookup, Option.map_some] at hreplaced
          exact hne (Option.some.inj hreplaced)
        · intro h e _ _
          have hother : other = Did.ofTemporary tempDid := by
            by_contra hne
            exact h ⟨other, rfl, hne, htemp⟩
          rw [hother] at hlookup
          rw [AssocMap.replace_of_lookup hlookup]
          rfl
  constructor
  · rintro h ⟨hvalid, did, tempDid, other, hdid, htemp, hhalf⟩
    exact (hwrites tempDid).mp (h () hvalid did hdid tempDid htemp) ⟨other, hhalf⟩
  · intro h _ hvalid did hdid tempDid htemp
    refine (hwrites tempDid).mpr ?_
    rintro ⟨other, hhalf⟩
    exact h ⟨hvalid, did, tempDid, other, hdid, htemp, hhalf⟩

theorem createAndStoreKey_atomic (w : WalletRecords) (random : Seed) (keyInfo : KeyInfo) :
    Stateful.AtomicAt RecordError (createAndStoreKey crates random keyInfo) w := by
  unfold createAndStoreKey
  rw [atomicAt_read_bind]
  intro key hkey
  by_cases hmem : key.verkey ∈ w.keys
  · have hadd := @addIndyObject_of_mem Key _ key.verkey key w hmem
    apply atomicAt_of_same
    rw [bind_err hadd]
  · have hadd := @addIndyObject_of_notMem Key _ key.verkey key w hmem
    apply atomicAt_of_ok
    rw [bind_ok hadd]
    rfl

theorem execute_atomic_iff (w : WalletRecords) (command : Command) :
    Stateful.AtomicAt RecordError (execute crates command) w ↔ ¬ HalfDone crates w command := by
  cases command with
  | createAndStoreMyDid random myDidInfo =>
    exact atomicAt_map.trans (createAndStoreMyDid_atomic_iff w random myDidInfo)
  | replaceKeysStart random keyInfo myDid =>
    exact atomicAt_map.trans (replaceKeysStart_atomic_iff w random keyInfo myDid)
  | replaceKeysApply myDid =>
    exact atomicAt_map.trans (replaceKeysApply_atomic_iff w myDid)
  | createKey random keyInfo =>
    exact atomicAt_map.trans
      (iff_of_true (createAndStoreKey_atomic w random keyInfo) not_false)

/-! ### The keys of the DIDs -/

/-- Each key pair is stored under its verification key, and each DID's is stored. -/
structure Owned (w : WalletRecords) : Prop where
  filed : ∀ name key, w.keys.lookup name = some key → key.verkey = name
  dids : ∀ name did, w.dids.lookup name = some did → did.verkey ∈ w.keys
  temporaryDids : ∀ name tempDid, w.temporaryDids.lookup name = some tempDid →
    tempDid.verkey ∈ w.keys

/-- The DIDs may name one more key. -/
structure OwnedBut (verkey : String) (w : WalletRecords) : Prop where
  filed : ∀ name key, w.keys.lookup name = some key → key.verkey = name
  dids : ∀ name did, w.dids.lookup name = some did → did.verkey ∈ w.keys ∨ did.verkey = verkey
  temporaryDids : ∀ name tempDid, w.temporaryDids.lookup name = some tempDid →
    tempDid.verkey ∈ w.keys

theorem lookup_insert_cases {α : Type} {m : AssocMap String α} {other : String} {a b : α}
    (h : (m.insert name a).lookup other = some b) :
    (other = name ∧ b = a) ∨ m.lookup other = some b := by
  by_cases hname : other = name
  · subst hname
    rw [lookup_insert] at h
    exact .inl ⟨rfl, (Option.some.inj h).symm⟩
  · rw [lookup_insert_ne hname] at h
    exact .inr h

theorem addKey_triple {key : Key} :
    Stateful.Triple (OwnedBut key.verkey) (addIndyObject key.verkey key)
      (fun _ w => Owned w ∧ key.verkey ∈ w.keys) Owned := by
  intro w hw
  by_cases hmem : key.verkey ∈ w.keys
  · rw [@addIndyObject_of_mem Key _ key.verkey key w hmem]
    refine ⟨hw.filed, fun name did hdid => ?_, hw.temporaryDids⟩
    rcases hw.dids name did hdid with hkey | hkey
    · exact hkey
    · rw [hkey]
      exact hmem
  · rw [@addIndyObject_of_notMem Key _ key.verkey key w hmem]
    have hself : key.verkey ∈ w.keys.insert key.verkey key :=
      (mem_insert w.keys).mpr (.inl rfl)
    have hkept : ∀ verkey, verkey ∈ w.keys → verkey ∈ w.keys.insert key.verkey key :=
      fun verkey h => (mem_insert w.keys).mpr (.inr h)
    refine ⟨⟨fun name stored hstored => ?_, fun name did hdid => ?_, fun name tempDid htemp => ?_⟩,
      hself⟩
    · rcases lookup_insert_cases hstored with ⟨rfl, rfl⟩ | hold
      · rfl
      · exact hw.filed name stored hold
    · rcases hw.dids name did hdid with hkey | hkey
      · exact hkept did.verkey hkey
      · rw [hkey]
        exact hself
    · exact hkept tempDid.verkey (hw.temporaryDids name tempDid htemp)

variable {w : WalletRecords}

theorem Owned.but (h : Owned w) (verkey : String) : OwnedBut verkey w :=
  ⟨h.filed, fun name did hdid => .inl (h.dids name did hdid), h.temporaryDids⟩

theorem addDid_triple {did : Did} :
    Stateful.Triple Owned (addIndyObject did.did did) (fun _ => OwnedBut did.verkey) Owned := by
  intro w hw
  by_cases hmem : did.did ∈ w.dids
  · rw [@addIndyObject_of_mem Did _ did.did did w hmem]
    exact hw
  · rw [@addIndyObject_of_notMem Did _ did.did did w hmem]
    refine ⟨hw.filed, fun name stored hstored => ?_, hw.temporaryDids⟩
    rcases lookup_insert_cases hstored with ⟨-, rfl⟩ | hold
    · exact .inr rfl
    · exact .inl (hw.dids name stored hold)

theorem addTemporaryDid_triple {tempDid : TemporaryDid} :
    Stateful.Triple (fun w => Owned w ∧ tempDid.verkey ∈ w.keys)
      (addIndyObject tempDid.did tempDid) (fun _ => Owned) Owned := by
  rintro w ⟨hw, hkey⟩
  by_cases hmem : tempDid.did ∈ w.temporaryDids
  · rw [@addIndyObject_of_mem TemporaryDid _ tempDid.did tempDid w hmem]
    exact hw
  · rw [@addIndyObject_of_notMem TemporaryDid _ tempDid.did tempDid w hmem]
    refine ⟨hw.filed, hw.dids, fun name stored hstored => ?_⟩
    rcases lookup_insert_cases hstored with ⟨-, rfl⟩ | hold
    · exact hkey
    · exact hw.temporaryDids name stored hold

theorem updateDid_triple {did : Did} :
    Stateful.Triple (fun w => Owned w ∧ did.verkey ∈ w.keys) (updateIndyObject did.did did)
      (fun _ => Owned) Owned := by
  rintro w ⟨hw, hkey⟩
  by_cases hmem : did.did ∈ w.dids
  · rw [@updateIndyObject_of_mem Did _ did.did did w hmem]
    refine ⟨hw.filed, fun name stored hstored => ?_, hw.temporaryDids⟩
    have hreplaced : (w.dids.replace did.did did).lookup name = some stored := hstored
    rw [AssocMap.lookup_replace] at hreplaced
    split_ifs at hreplaced with hname
    · obtain ⟨-, -, rfl⟩ := Option.map_eq_some_iff.mp hreplaced
      exact hkey
    · exact hw.dids name stored hreplaced
  · rw [@updateIndyObject_of_notMem Did _ did.did did w hmem]
    exact hw

theorem deleteTemporaryDid_triple :
    Stateful.Triple Owned (deleteIndyRecord TemporaryDid name) (fun _ => Owned) Owned := by
  intro w hw
  by_cases hmem : name ∈ w.temporaryDids
  · rw [@deleteIndyRecord_of_mem TemporaryDid _ name w hmem]
    refine ⟨hw.filed, hw.dids, fun other tempDid htemp => ?_⟩
    have herased : (w.temporaryDids.erase name).lookup other = some tempDid := htemp
    by_cases hname : other = name
    · rw [hname, lookup_erase] at herased
      cases herased
    · rw [lookup_erase_ne hname] at herased
      exact hw.temporaryDids other tempDid herased
  · rw [@deleteIndyRecord_of_notMem TemporaryDid _ name w hmem]
    exact hw

theorem createMyDid_verkey {random : Seed} {myDidInfo : MyDidInfo} {r : Did × Key}
    (h : createMyDid crates random myDidInfo = .ok r) : r.1.verkey = r.2.verkey := by
  obtain ⟨_, -, h⟩ := bind_eq_ok_iff.mp h
  obtain ⟨seed, -, h⟩ := bind_eq_ok_iff.mp h
  obtain ⟨did, -, h⟩ := bind_eq_ok_iff.mp h
  cases h
  rfl

theorem createAndStoreMyDid_triple (random : Seed) (myDidInfo : MyDidInfo) :
    Stateful.Triple Owned (createAndStoreMyDid crates random myDidInfo) (fun _ => Owned) Owned := by
  refine triple_bind (triple_read
    (fun w r hw hr => (⟨hw, createMyDid_verkey hr⟩ : Owned w ∧ r.1.verkey = r.2.verkey))
    (fun w hw => hw)) ?_
  rintro ⟨did, key⟩
  refine triple_of_fact (fun hverkey => ?_)
  refine triple_bind (triple_read (fun w _ hw _ => hw) (fun w hw => hw)) ?_
  intro found
  cases found with
  | true =>
    exact triple_read (fun _ _ _ h => by cases h) (fun w hw => hw)
  | false =>
    refine triple_bind addDid_triple (fun _ => ?_)
    have hkey := @addKey_triple key
    dsimp only at hverkey
    rw [hverkey]
    refine triple_bind hkey (fun _ => ?_)
    exact triple_pure (fun w hw => hw.1)

theorem replaceKeysStart_triple (random : Seed) (keyInfo : KeyInfo) (myDid : String) :
    Stateful.Triple Owned (replaceKeysStart crates random keyInfo myDid) (fun _ => Owned)
      Owned := by
  refine triple_bind (triple_read (fun w _ hw _ => hw) (fun w hw => hw)) ?_
  intro _
  refine triple_bind (triple_read (fun w _ hw _ => hw) (fun w hw => hw)) ?_
  intro did
  refine triple_bind (triple_read (fun w _ hw _ => hw) (fun w hw => hw)) ?_
  intro key
  refine triple_bind (addKey_triple.of_pre (fun w hw => hw.but key.verkey)) (fun _ => ?_)
  have htemp := @addTemporaryDid_triple ⟨did.did, key.verkey⟩
  exact triple_bind htemp (fun _ => triple_pure (fun w hw => hw))

theorem replaceKeysApply_triple (myDid : String) :
    Stateful.Triple Owned (replaceKeysApply crates myDid) (fun _ => Owned) Owned := by
  refine triple_bind (triple_read (fun w _ hw _ => hw) (fun w hw => hw)) ?_
  intro _
  refine triple_bind (triple_read (fun w _ hw _ => hw) (fun w hw => hw)) ?_
  intro did
  have hread : ∀ (w : WalletRecords) (tempDid : TemporaryDid), Owned w →
      getIndyObject did.did w = .ok tempDid → Owned w ∧ tempDid.verkey ∈ w.keys :=
    fun w tempDid hw htemp =>
      ⟨hw, hw.temporaryDids did.did tempDid (getIndyObject_eq_ok.mp htemp)⟩
  refine triple_bind (triple_read hread (fun w hw => hw)) ?_
  intro tempDid
  have hupdate := @updateDid_triple (Did.ofTemporary tempDid)
  exact triple_bind hupdate (fun _ => deleteTemporaryDid_triple)

theorem createAndStoreKey_triple (random : Seed) (keyInfo : KeyInfo) :
    Stateful.Triple Owned (createAndStoreKey crates random keyInfo) (fun _ => Owned) Owned := by
  refine triple_bind (triple_read (fun w _ hw _ => hw) (fun w hw => hw)) ?_
  intro key
  refine triple_bind (addKey_triple.of_pre (fun w hw => hw.but key.verkey)) (fun _ => ?_)
  exact triple_pure (fun w hw => hw.1)

theorem execute_owned (command : Command) (h : Owned w) :
    Owned (execute crates command w).2 := by
  cases command with
  | createAndStoreMyDid random myDidInfo =>
    exact (triple_map (createAndStoreMyDid_triple random myDidInfo)).ends h
  | replaceKeysStart random keyInfo myDid =>
    exact (triple_map (replaceKeysStart_triple random keyInfo myDid)).ends h
  | replaceKeysApply myDid =>
    exact (triple_map (replaceKeysApply_triple myDid)).ends h
  | createKey random keyInfo =>
    exact (triple_map (createAndStoreKey_triple random keyInfo)).ends h

theorem run_owned (commands : List Command) (h : Owned w) :
    Owned ((didMachine crates).run commands w) := by
  induction commands generalizing w with
  | nil => exact h
  | cons command commands ih => exact ih (execute_owned command h)

/-- A command that fails because a record exists or is missing leaves the records alone exactly when
it does not get half done; and the key of each DID is in the wallet after every run of commands. -/
theorem did_commands_atomic_iff (crates : PackCrates) (w : WalletRecords) (command : Command)
    (commands : List Command) :
    (Stateful.AtomicAt RecordError (execute crates command) w ↔ ¬ HalfDone crates w command) ∧
      Owned ((didMachine crates).run commands {}) := by
  refine ⟨execute_atomic_iff w command, run_owned commands ⟨?_, ?_, ?_⟩⟩
  · rintro name key ⟨⟩
  · rintro name did ⟨⟩
  · rintro name tempDid ⟨⟩

/-! ### A key of one's own -/

def twinSeed : String := "00000000000000000000000000000My1"

def twinInfo : MyDidInfo := ⟨none, some twinSeed, none, none⟩

/-- The key of the seed is in the wallet. -/
def keyedWallet : WalletRecords :=
  (didMachine exampleCrates).run [.createKey exampleSeed ⟨some twinSeed, none⟩] {}

def twinDid : String :=
  encode exampleCrates.codec.base58 ((Bytes.ofText twinSeed).take 16)

/-- The DID of the seed has a temporary key. -/
def rotatingWallet : WalletRecords :=
  (didMachine exampleCrates).run
    [.createAndStoreMyDid exampleSeed twinInfo,
      .replaceKeysStart exampleSeed ⟨some "00000000000000000000000000000My2", none⟩ twinDid] {}

/-- A DID whose key exists is left behind by the failure; and so is the key of a second rotation. -/
theorem record_left_behind :
    ¬ Stateful.AtomicAt RecordError
        (execute exampleCrates (.createAndStoreMyDid exampleSeed twinInfo)) keyedWallet ∧
      ¬ Stateful.AtomicAt RecordError
        (execute exampleCrates (.replaceKeysStart exampleSeed ⟨none, none⟩ twinDid))
          rotatingWallet := by
  constructor
  · intro h
    have herr : (execute exampleCrates (.createAndStoreMyDid exampleSeed twinInfo)
        keyedWallet).1 = .err (errMsg .walletItemAlreadyExists
          "Wallet item already exists with type: _, id: _"
          ["Indy::Key", encode exampleCrates.codec.base58 (Bytes.ofText twinSeed)]) := by
      decide +kernel
    have hsame := congrArg (fun w => w.dids.keys) (h _ herr (recordError_alreadyExists _ _))
    exact absurd hsame (by decide +kernel)
  · intro h
    have herr : (execute exampleCrates (.replaceKeysStart exampleSeed ⟨none, none⟩ twinDid)
        rotatingWallet).1 = .err (errMsg .walletItemAlreadyExists
          "Wallet item already exists with type: _, id: _" ["Indy::TemporaryDid", twinDid]) := by
      decide +kernel
    have hsame := congrArg (fun w => w.keys.keys) (h _ herr (recordError_alreadyExists _ _))
    exact absurd hsame (by decide +kernel)

end IndySdk.MyDids
