import IndySdk.WalletRefinement

/-!
# Runs of a wallet against its record map

A run conforms when every call answers what the record map answers, every failing call leaves the
database alone, and after every call the wallet lists the map. Runs conform exactly when no `add`
under a new key is given a row id with tags of a deleted record.
-/

namespace IndySdk.Wallet

variable (wc : WalletCrypto) (keys : Keys) (fromStr : RecordOptionsReader)
  (order : IterationOrder)

structure StepConforms (s : Store) (m : RecordMap) (c : Call) : Prop where
  answer : Agrees (step wc keys fromStr order c s).1 (RecordMap.step fromStr c m).1
  failed : ∀ e, (step wc keys fromStr order c s).1 = .err e →
    (step wc keys fromStr order c s).2.db = s.db
  lists : Agrees (Reply.records <$> getAll wc keys order (step wc keys fromStr order c s).2.db)
    (.ok (.all (RecordMap.step fromStr c m).2))

/-- An `add` under a new key finds no tags under the row id it is given. -/
def AddsToFreeRow (s : Store) (c : Call) : Prop :=
  match c.op with
  | .add type name _ _ =>
    SQLiteStorage.selectItem s.db (encryptType wc keys type) (encryptName wc keys name) = none →
      NextRowFree s.db
  | _ => True

variable {wc keys} {m : RecordMap}

theorem RecordMap.Lists.map_eq {l : List Record} {m' : RecordMap} (h : RecordMap.Lists l m)
    (h' : RecordMap.Lists l m') : m = m' := by
  have hle : ∀ {m m' : RecordMap}, RecordMap.Lists l m → RecordMap.Lists l m' →
      ∀ type name e, m (type, name) = some e → m' (type, name) = some e := by
    intro m m' h h' type name e he
    obtain ⟨type', name', e', he', hr⟩ := (h'.2 _).mp ((h.2 _).mpr ⟨type, name, e, he, rfl⟩)
    simp only [RecordMap.fullRecord, Record.mk.injEq, Option.some.injEq] at hr
    obtain ⟨rfl, rfl, hv, ht⟩ := hr
    rw [he']
    cases e
    cases e'
    exact congrArg some (by rw [Entry.mk.injEq]; exact ⟨hv.symm, ht.symm⟩)
  funext key
  obtain ⟨type, name⟩ := key
  exact Option.ext (fun e => ⟨hle h h' type name e, hle h' h type name e⟩)

theorem step_refines {s : Store} (h : Represents wc keys s.db m) {c : Call}
    (hc : AddsToFreeRow wc keys s c) :
    Agrees (step wc keys fromStr order c s).1 (RecordMap.step fromStr c m).1 ∧
      Represents wc keys (step wc keys fromStr order c s).2.db (RecordMap.step fromStr c m).2 := by
  obtain ⟨op, random⟩ := c
  cases op with
  | add type name value tags =>
    cases hm : m (type, name) with
    | some e => exact add_refines_of_some h hm value tags random fromStr
    | none =>
      have hfree : NextRowFree s.db := hc (h.selectItem_of_none hm)
      have hs : TagsAre wc keys s.db.tags (SQLiteStorage.rowIdOf s.db) (fun _ => none) :=
        fun tag => ⟨fun ht => absurd ht (hfree tag), fun ⟨_, _, hn, _⟩ => by cases hn⟩
      rcases add_cases h hm hs value tags random with ⟨⟨n, hn, -⟩, -⟩ | ⟨-, db', ha, hrep⟩
      · cases hn
      · have ho : RecordMap.overlay (fun n => tags.lookup n) (fun _ => none) =
            fun n => tags.lookup n := funext (fun n => Option.or_none)
        rw [ho] at hrep
        simp only [step, Store.exec, ha, RecordMap.step, hm]
        exact ⟨trivial, hrep⟩
  | update type name newValue => exact update_refines h type name newValue random
  | addTags type name tags => exact addTags_refines h type name tags
  | updateTags type name tags => exact updateTags_refines h type name tags
  | deleteTags type name tagNames => exact deleteTags_refines h type name tagNames
  | delete type name => exact delete_refines h s.conn type name fromStr
  | get type name options => exact ⟨get_refines h type name options, h⟩
  | getAll =>
    obtain ⟨records, hg, hl⟩ := @getAll_lists _ _ order _ _ h
    refine ⟨?_, h⟩
    simp only [step, hg, Outcome.map_ok]
    exact hl
  | reopen => exact ⟨trivial, h⟩

theorem stepConforms_iff {s : Store} (h : Represents wc keys s.db m) (c : Call) :
    StepConforms wc keys fromStr order s m c ↔ AddsToFreeRow wc keys s c := by
  constructor
  · intro hconf
    obtain ⟨op, random⟩ := c
    cases op with
    | add type name value tags =>
      intro hnone tag htag
      have hm : m (type, name) = none := by
        cases hm : m (type, name) with
        | none => rfl
        | some e =>
          obtain ⟨r, hr, -⟩ := h.selectItem_of_some hm
          rw [hnone] at hr
          cases hr
      obtain ⟨stale, hs⟩ := exists_tagsAre (fun t ht => h.encrypted _ t ht)
      obtain ⟨n, v, hv, -⟩ := (hs tag).mp htag
      rcases add_cases h hm hs value tags random with ⟨-, e, he⟩ | ⟨hfree, db', ha, hrep⟩
      · have hanswer := hconf.answer
        simp only [step, Store.exec, he, Outcome.map_err, RecordMap.step, hm] at hanswer
        exact hanswer
      · obtain ⟨records, hg, hl⟩ := @getAll_lists _ _ order _ _ hrep
        have hlists := hconf.lists
        simp only [step, Store.exec, ha, hg, Outcome.map_ok, RecordMap.step, hm] at hlists
        have heq := congrFun (hl.map_eq hlists) (type, name)
        rw [Function.update_self, Function.update_self, Option.some.injEq, Entry.mk.injEq] at heq
        have hn := congrFun heq.2 n
        have hnone := hfree n (Option.isSome_of_eq_some hv)
        rw [RecordMap.overlay, hnone, Option.none_or, hv] at hn
        cases hn
    | _ => trivial
  · intro hc
    obtain ⟨hanswer, hrep⟩ := step_refines fromStr order h hc
    obtain ⟨records, hg, hl⟩ := @getAll_lists _ _ order _ _ hrep
    exact ⟨hanswer, fun e he => step_db_of_err wc keys fromStr order he, by rw [hg]; exact hl⟩

theorem represents_create (metadata : Bytes) :
    Represents wc keys (Store.create metadata).db RecordMap.empty := by
  refine ⟨fun r hr => ?_, fun type name e he => ?_, fun j t ht => ?_⟩
  · cases hr
  · cases he
  · cases t <;> cases ht

/-- A run from a new wallet conforms to the record map exactly when every `add` under a new key
gets a row id without stored tags. -/
theorem run_conforms_iff (metadata : Bytes) (calls : List Call) :
    (machine wc keys fromStr order).Together (RecordMap.machine fromStr)
        (StepConforms wc keys fromStr order) (Store.create metadata) RecordMap.empty calls ↔
      (machine wc keys fromStr order).Along (AddsToFreeRow wc keys) (Store.create metadata)
        calls := by
  have hstep : ∀ s m c, Represents wc keys s.db m →
      (StepConforms wc keys fromStr order s m c ↔ AddsToFreeRow wc keys s c) :=
    fun s m c h => stepConforms_iff fromStr order h c
  have hkeep : ∀ s m c, Represents wc keys s.db m → AddsToFreeRow wc keys s c →
      Represents wc keys ((machine wc keys fromStr order).step c s).2.db
        ((RecordMap.machine fromStr).step c m).2 :=
    fun s m c h hc => (step_refines fromStr order h hc).2
  exact Machine.together_iff_along hstep hkeep calls (represents_create metadata)

/-- The tag of a record that was answered. -/
def tagOfReply : IndyResult Reply → String → Option String
  | .ok (.record r), n => r.tags.bind (fun tags => tags.lookup n)
  | _, _ => none

def tagOfAnswer : RecordMap.Result → String → Option String
  | .ok (.record r), n => r.tags.bind (fun tags => tags n)
  | _, _ => none

theorem Agrees.tag_eq {x : IndyResult Reply} {y : RecordMap.Result} (h : Agrees x y) (n : String) :
    tagOfReply x n = tagOfAnswer y n := by
  match x, y, h with
  | .ok .done, .ok .done, _ => rfl
  | .ok (.record r), .ok (.record r'), h =>
    have hv : r.view = r' := h
    subst hv
    obtain ⟨type, id, value, tags⟩ := r
    cases tags <;> rfl
  | .ok (.records _), .ok (.all _), _ => rfl
  | .err _, .error _, _ => rfl

def zeroTag : HmacTag := ⟨List.replicate hmacTagBytes 0, rfl⟩

def zeroNonce : Nonce := ⟨List.replicate nonceBytes 0, rfl⟩

/-- A sealing function that seals nothing, for evaluating runs. -/
def plainCrypto : WalletCrypto where
  encrypt := fun data _ _ => data
  decrypt := fun data _ _ => some data
  authenticate := fun _ _ => zeroTag
  decrypt_encrypt := fun _ _ _ => rfl

def zeroKey : Key := ⟨List.replicate keyBytes 0, rfl⟩

def zeroKeys : Keys where
  typeKey := zeroKey
  nameKey := zeroKey
  valueKey := zeroKey
  itemHmacKey := ⟨List.replicate keyBytes 0, rfl⟩
  tagNameKey := zeroKey
  tagValueKey := zeroKey
  tagsHmacKey := ⟨List.replicate keyBytes 0, rfl⟩

def zeroRandomness : ValueRandomness where
  valueKey := zeroKey
  dataNonce := zeroNonce
  keyNonce := zeroNonce

/-- A record with a tag is deleted and added again without tags, and then read with its tags. -/
def readdedCalls : List Call :=
  [⟨.add "t" "n" "v" (AList.insert "a" "1" ∅), zeroRandomness⟩,
    ⟨.delete "t" "n", zeroRandomness⟩,
    ⟨.add "t" "n" "w" ∅, zeroRandomness⟩,
    ⟨.get "t" "n" "all", zeroRandomness⟩]

def readAll : RecordOptionsReader := fun _ => some ⟨true, true, true⟩

theorem readdedCalls_not_conform :
    ¬ (machine plainCrypto zeroKeys readAll .inserted).Together (RecordMap.machine readAll)
      (StepConforms plainCrypto zeroKeys readAll .inserted) (Store.create []) RecordMap.empty
      readdedCalls := by
  rintro ⟨-, -, -, hget, -⟩
  have htag := hget.answer.tag_eq "a"
  revert htag
  decide +kernel

end IndySdk.Wallet
