import IndySdk.CredentialExchange

/-!
# The referents of a proof request

The verifier lists the attributes and predicates it asks for, and names may repeat. Each entry
goes into a map under a referent: its name, or its name with its place in the list when the name
is a referent already. A referent made in this way may itself be one that an earlier entry has.
-/

namespace IndySdk.Vcx.ProofRequest

open List AList

structure Filter where
  schemaId : Option String := none
  schemaIssuerDid : Option String := none
  schemaName : Option String := none
  schemaVersion : Option String := none
  issuerDid : Option String := none
  credDefId : Option String := none
  deriving DecidableEq

structure NonRevokedInterval where
  fromTime : Option ℕ
  toTime : Option ℕ
  deriving DecidableEq

structure AttrInfo where
  name : String
  restrictions : Option (List Filter) := none
  nonRevoked : Option NonRevokedInterval := none
  deriving DecidableEq

structure PredicateInfo where
  name : String
  pType : String
  pValue : ℤ
  restrictions : Option (List Filter) := none
  nonRevoked : Option NonRevokedInterval := none
  deriving DecidableEq

structure ProofRequestData where
  requestedAttributes : AssocMap String AttrInfo
  requestedPredicates : AssocMap String PredicateInfo

def invalidJson : VcxErrorKind := .other 1016

/-- The next value of a counter of 32 bits. -/
def nextIndex (index : ℤ) : ℤ := Int.bmod (index + 1) (2 ^ 32)

def generated (name : String) (index : ℤ) : String := name ++ "_" ++ toString index

section

variable {α : Type} (nameOf : α → String)

/-- One round of the loop over the entries, from the index and the map before it. -/
def insertEntry (s : ℤ × AssocMap String α) (entry : α) : ℤ × AssocMap String α :=
  (nextIndex s.1,
    if nameOf entry ∈ s.2 then s.2.insert (generated (nameOf entry) s.1) entry
    else s.2.insert (nameOf entry) entry)

def referents (entries : List α) : AssocMap String α :=
  (entries.foldl (insertEntry nameOf) (1, ∅)).2

end

/-- `fromStr` reads a JSON list of attributes. -/
def requestedAttrs (fromStr : String → Except String (List AttrInfo)) (request : ProofRequestData)
    (attrs : String) : VcxResult ProofRequestData :=
  match fromStr attrs with
  | .error err => .err ⟨invalidJson, "Cannot parse attributes: _", [err]⟩
  | .ok proofAttrs => .ok { request with requestedAttributes := referents AttrInfo.name proofAttrs }

def requestedPredicates (fromStr : String → Except String (List PredicateInfo))
    (request : ProofRequestData) (predicates : String) : VcxResult ProofRequestData :=
  match fromStr predicates with
  | .error err => .err ⟨invalidJson, "Cannot parse predicates: _", [err]⟩
  | .ok attrValues =>
      .ok { request with requestedPredicates := referents PredicateInfo.name attrValues }

/-! ## Which referents are taken -/

/-- The number that the entry at a place, counted from zero, gets in its referent. -/
def number : ℕ → ℤ
  | 0 => 1
  | place + 1 => nextIndex (number place)

/-- A text is a referent of the entries with the given names: it is one of the names, or was made
for an entry whose own name was a referent before it. -/
inductive Taken : List String → String → Prop
  | name {names : List String} {x : String} (h : x ∈ names) : Taken names x
  | generated {before after : List String} {y : String} (h : Taken before y) :
      Taken (before ++ y :: after) (generated y (number before.length))

theorem taken_nil (x : String) : ¬ Taken [] x := by
  intro h
  generalize hl : ([] : List String) = l at h
  cases h with
  | name h =>
      rw [← hl] at h
      exact not_mem_nil h
  | generated h =>
      exact absurd hl.symm (append_ne_nil_of_right_ne_nil _ (cons_ne_nil _ _))

variable {names : List String}

theorem Taken.append {x : String} (h : Taken names x) (rest : List String) :
    Taken (names ++ rest) x := by
  cases h with
  | name h => exact .name (mem_append_left _ h)
  | generated h =>
      rw [append_assoc, cons_append]
      exact .generated h

theorem taken_concat {y x : String} :
    Taken (names ++ [y]) x ↔
      Taken names x ∨ x = y ∨ (Taken names y ∧ x = generated y (number names.length)) := by
  constructor
  · intro h
    generalize hl : names ++ [y] = l at h
    cases h with
    | name h =>
        rw [← hl] at h
        obtain h | h := mem_append.mp h
        · exact .inl (.name h)
        · exact .inr (.inl (mem_singleton.mp h))
    | @generated before after z h =>
        obtain hnil | ⟨after', w, hafter⟩ := eq_nil_or_concat' after
        · rw [hnil] at hl
          obtain ⟨rfl, hyz⟩ := append_inj' hl rfl
          cases hyz
          exact .inr (.inr ⟨h, rfl⟩)
        · rw [hafter, ← cons_append, ← append_assoc] at hl
          obtain ⟨rfl, _⟩ := append_inj' hl rfl
          exact .inl (.generated h)
  · rintro (h | rfl | ⟨h, rfl⟩)
    · exact h.append _
    · exact .name (mem_append_right _ mem_cons_self)
    · exact .generated h

/-- No entry whose name is taken is given a referent that is taken too. -/
def Apart (names : List String) : Prop :=
  ∀ before y after, names = before ++ y :: after → Taken before y →
    ¬ Taken before (generated y (number before.length))

theorem apart_nil : Apart [] := by
  intro before y after h
  exact absurd h.symm (append_ne_nil_of_right_ne_nil _ (cons_ne_nil _ _))

theorem apart_concat {y : String} :
    Apart (names ++ [y]) ↔
      Apart names ∧ (Taken names y → ¬ Taken names (generated y (number names.length))) := by
  constructor
  · intro h
    refine ⟨fun before z after heq => h before z (after ++ [y]) ?_, h names y [] rfl⟩
    rw [heq, append_assoc, cons_append]
  · rintro ⟨h, hy⟩ before z after heq
    obtain hnil | ⟨after', w, hafter⟩ := eq_nil_or_concat' after
    · rw [hnil] at heq
      obtain ⟨rfl, hyz⟩ := append_inj' heq rfl
      cases hyz
      exact hy
    · rw [hafter, ← cons_append, ← append_assoc] at heq
      obtain ⟨heq, _⟩ := append_inj' heq rfl
      exact h before z after' heq

/-! ## The map of a list -/

section

variable {α : Type} {nameOf : α → String}

theorem index_foldl (entries : List α) :
    (entries.foldl (insertEntry nameOf) (1, ∅)).1 = number entries.length := by
  induction entries using List.reverseRecOn with
  | nil => rfl
  | append_singleton entries a ih =>
      rw [foldl_append, length_append, length_singleton, number, ← ih]
      rfl

theorem referents_concat (entries : List α) (a : α) :
    referents nameOf (entries ++ [a]) =
      if nameOf a ∈ referents nameOf entries then
        (referents nameOf entries).insert (generated (nameOf a) (number entries.length)) a
      else (referents nameOf entries).insert (nameOf a) a := by
  rw [← @index_foldl _ nameOf, referents, referents, foldl_append]
  rfl

theorem mem_referents (entries : List α) (x : String) :
    x ∈ referents nameOf entries ↔ Taken (entries.map nameOf) x := by
  induction entries using List.reverseRecOn generalizing x with
  | nil => exact ⟨fun h => absurd h (notMem_empty x), fun h => absurd h (taken_nil x)⟩
  | append_singleton entries a ih =>
      rw [referents_concat, map_append, map_singleton, taken_concat, length_map,
        ← ih, ← ih]
      by_cases ha : nameOf a ∈ referents nameOf entries
      · rw [if_pos ha, mem_insert]
        constructor
        · rintro (rfl | h)
          · exact .inr (.inr ⟨ha, rfl⟩)
          · exact .inl h
        · rintro (h | rfl | ⟨_, rfl⟩)
          · exact .inr h
          · exact .inr ha
          · exact .inl rfl
      · rw [if_neg ha, mem_insert]
        constructor
        · rintro (rfl | h)
          · exact .inr (.inl rfl)
          · exact .inl h
        · rintro (h | rfl | ⟨h, _⟩)
          · exact .inr h
          · exact .inl rfl
          · exact absurd h ha

theorem keys_insert_length (m : AssocMap String α) (x : String) (a : α) :
    (m.insert x a).keys.length = if x ∈ m then m.keys.length else m.keys.length + 1 := by
  rw [keys_insert, length_cons]
  by_cases h : x ∈ m
  · have hpos : 0 < m.keys.length := length_pos_of_mem (mem_keys.mpr h)
    rw [if_pos h, length_erase_of_mem (mem_keys.mpr h)]
    omega
  · rw [if_neg h, erase_of_not_mem (fun hx => h (mem_keys.mp hx))]

theorem keys_referents_length (entries : List α) :
    (referents nameOf entries).keys.length ≤ entries.length ∧
      ((referents nameOf entries).keys.length = entries.length ↔
        Apart (entries.map nameOf)) := by
  induction entries using List.reverseRecOn with
  | nil => exact ⟨Nat.le_refl 0, fun _ => apart_nil, fun _ => rfl⟩
  | append_singleton entries a ih =>
      obtain ⟨hle, hiff⟩ := ih
      rw [referents_concat, map_append, map_singleton, apart_concat, length_append,
        length_singleton, length_map, ← hiff, ← mem_referents, ← mem_referents]
      by_cases ha : nameOf a ∈ referents nameOf entries
      · rw [if_pos ha, keys_insert_length]
        by_cases hg : generated (nameOf a) (number entries.length) ∈ referents nameOf entries
        · rw [if_pos hg]
          refine ⟨by omega, fun h => by omega, fun h => absurd hg (h.2 ha)⟩
        · rw [if_neg hg]
          refine ⟨by omega, fun h => ⟨by omega, fun _ => hg⟩, fun h => by omega⟩
      · rw [if_neg ha, keys_insert_length, if_neg ha]
        refine ⟨by omega, fun h => ⟨by omega, fun h => absurd h ha⟩, fun h => by omega⟩

/-- Each entry has a referent of its own, under which the map holds that entry as it is, and the
map holds nothing else. -/
def Complete (entries : List α) (m : AssocMap String α) : Prop :=
  ∃ refs : List String, refs.Nodup ∧ List.Forall₂ (fun r a => m.lookup r = some a) refs entries ∧
    ∀ r, r ∈ m ↔ r ∈ refs

theorem Complete.keys_length {entries : List α} {m : AssocMap String α} (h : Complete entries m) :
    m.keys.length = entries.length := by
  obtain ⟨refs, hnodup, hall, hmem⟩ := h
  have hperm : m.keys.Perm refs := by
    apply (perm_ext_iff_of_nodup m.nodupKeys hnodup).mpr
    intro r
    rw [← hmem]
    exact mem_keys.symm
  rw [hperm.length_eq]
  exact hall.length_eq

theorem Complete.insert {entries : List α} {m : AssocMap String α} (h : Complete entries m)
    {r : String} (hr : r ∉ m) (a : α) : Complete (entries ++ [a]) (m.insert r a) := by
  obtain ⟨refs, hnodup, hall, hmem⟩ := h
  have hnew : r ∉ refs := fun h => hr ((hmem r).mpr h)
  refine ⟨refs ++ [r], ?_, ?_, fun x => ?_⟩
  · rw [nodup_append]
    refine ⟨hnodup, nodup_singleton r, ?_⟩
    intro x hx y hy hxy
    rw [mem_singleton.mp hy] at hxy
    exact hnew (hxy ▸ hx)
  · apply rel_append
    · apply hall.imp
      intro x b hx
      have hne : x ≠ r := by
        intro h
        apply hr
        rw [← h, ← lookup_isSome, hx]
        rfl
      rw [lookup_insert_ne hne]
      exact hx
    · exact .cons (lookup_insert _) .nil
  · rw [mem_insert, hmem, mem_append, mem_singleton, or_comm]

theorem complete_referents_iff (entries : List α) :
    Complete entries (referents nameOf entries) ↔ Apart (entries.map nameOf) := by
  constructor
  · intro h
    exact (keys_referents_length entries).2.mp h.keys_length
  · intro h
    induction entries using List.reverseRecOn with
    | nil => exact ⟨[], nodup_nil, .nil, fun r => ⟨fun h => absurd h (notMem_empty r),
        fun h => absurd h not_mem_nil⟩⟩
    | append_singleton entries a ih =>
        rw [map_append, map_singleton, apart_concat, length_map, ← mem_referents,
          ← mem_referents] at h
        rw [referents_concat]
        by_cases ha : nameOf a ∈ referents nameOf entries
        · rw [if_pos ha]
          exact (ih h.1).insert (h.2 ha) a
        · rw [if_neg ha]
          exact (ih h.1).insert ha a

end

/-! ## The request that is built -/

/-- A list of attributes and a list of predicates are both in the request entry by entry exactly
where neither makes a referent that it has already. -/
theorem builtRequest_complete_iff {fromAttrs : String → Except String (List AttrInfo)}
    {fromPredicates : String → Except String (List PredicateInfo)} {attrs predicates : String}
    {proofAttrs : List AttrInfo} {attrValues : List PredicateInfo}
    (hattrs : fromAttrs attrs = .ok proofAttrs)
    (hpredicates : fromPredicates predicates = .ok attrValues) (request : ProofRequestData) :
    ∃ built, (requestedAttrs fromAttrs request attrs >>= fun request =>
        requestedPredicates fromPredicates request predicates) = .ok built ∧
      (Complete proofAttrs built.requestedAttributes ↔ Apart (proofAttrs.map AttrInfo.name)) ∧
      (Complete attrValues built.requestedPredicates ↔
        Apart (attrValues.map PredicateInfo.name)) := by
  have hfirst : requestedAttrs fromAttrs request attrs =
      .ok { request with requestedAttributes := referents AttrInfo.name proofAttrs } := by
    rw [requestedAttrs, hattrs]
  have hsecond : ∀ r, requestedPredicates fromPredicates r predicates =
      .ok { r with requestedPredicates := referents PredicateInfo.name attrValues } := by
    intro r
    rw [requestedPredicates, hpredicates]
  refine ⟨⟨referents AttrInfo.name proofAttrs, referents PredicateInfo.name attrValues⟩, ?_,
    complete_referents_iff proofAttrs, complete_referents_iff attrValues⟩
  rw [hfirst]
  exact hsecond _

def noRequest : ProofRequestData := ⟨∅, ∅⟩

/-- A repeated attribute and one predicate. -/
theorem builtRequest_repeated :
    ∃ built, (requestedAttrs (fun _ => .ok [{ name := "age" }, { name := "age" }]) noRequest
          "[\x7b\"name\":\"age\"\x7d,\x7b\"name\":\"age\"\x7d]" >>= fun request =>
        requestedPredicates (fun _ => .ok [{ name := "age", pType := "GE", pValue := 22 }]) request
          "[\x7b\"name\":\"age\",\"p_type\":\"GE\",\"p_value\":22\x7d]") = .ok built ∧
      (Complete [{ name := "age" }, { name := "age" }] built.requestedAttributes ↔
        Apart ["age", "age"]) ∧
      (Complete [{ name := "age", pType := "GE", pValue := 22 }] built.requestedPredicates ↔
        Apart ["age"]) :=
  builtRequest_complete_iff rfl rfl noRequest

/-- The attribute `age_3` and two attributes `age`, the second of them restricted. -/
def suffixed : List AttrInfo :=
  [{ name := "age_3" }, { name := "age" }, { name := "age", restrictions := some [] }]

def suffixedJson : String :=
  "[\x7b\"name\":\"age_3\"\x7d,\x7b\"name\":\"age\"\x7d," ++
    "\x7b\"name\":\"age\",\"restrictions\":[]\x7d]"

/-- The second `age` is filed under `age_3`, and the attribute of that name is gone. -/
theorem suffixedName_overwritten :
    ∃ built, requestedAttrs (fun _ => .ok suffixed) noRequest suffixedJson = .ok built ∧
      built.requestedAttributes.keys = ["age_3", "age"] ∧
      built.requestedAttributes.lookup "age_3" = suffixed[2]? ∧
      ¬ Complete suffixed built.requestedAttributes := by
  refine ⟨_, rfl, rfl, rfl, fun h => ?_⟩
  have hlength := h.keys_length
  revert hlength
  decide

end IndySdk.Vcx.ProofRequest
