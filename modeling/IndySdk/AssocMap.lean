import Mathlib.Data.List.AList
import Mathlib.Data.Finset.Card
import Mathlib.Tactic.Common

/-!
# Finite maps with an iteration order

A hash map is an association list without repeated keys. Its entries stand in some iteration
order; a map given from outside is quantified with its order, and code that iterates over a map
it built itself takes an `IterationOrder`, an arbitrary rearrangement of the entries.
-/

open List

abbrev AssocMap (κ α : Type*) := AList (fun _ : κ => α)

namespace AssocMap

variable {κ α β : Type*}

def toPairs (m : AssocMap κ α) : List (κ × α) := m.entries.map (fun s => (s.1, s.2))

def values (m : AssocMap κ α) : List α := m.entries.map Sigma.snd

@[simp] theorem toPairs_empty : toPairs (∅ : AssocMap κ α) = [] := rfl

@[simp] theorem values_empty : values (∅ : AssocMap κ α) = [] := rfl

variable {m : AssocMap κ α} {k : κ} {a : α}

theorem toPairs_isEmpty : m.toPairs.isEmpty = true ↔ m = ∅ := by
  rw [List.isEmpty_iff, toPairs, map_eq_nil_iff]
  exact ⟨fun h => AList.ext h, fun h => by rw [h]; rfl⟩

variable [DecidableEq κ]

theorem mem_toPairs :
    (k, a) ∈ m.toPairs ↔ m.lookup k = some a := by
  rw [← Option.mem_def, AList.mem_lookup_iff, toPairs, mem_map]
  constructor
  · rintro ⟨⟨k', a'⟩, hs, he⟩
    cases he
    exact hs
  · exact fun h => ⟨⟨k, a⟩, h, rfl⟩

theorem mem_values : a ∈ m.values ↔ ∃ k, m.lookup k = some a := by
  rw [values, mem_map]
  constructor
  · rintro ⟨⟨k, a'⟩, hs, rfl⟩
    exact ⟨k, AList.mem_lookup_iff.mpr hs⟩
  · rintro ⟨k, hk⟩
    exact ⟨⟨k, a⟩, AList.mem_lookup_iff.mp hk, rfl⟩

theorem values_insert (m : AssocMap κ α) (k : κ) (a : α) :
    values (m.insert k a) = a :: values (m.erase k) := by
  rw [values, AList.entries_insert, map_cons]
  rfl

theorem values_insert_of_notMem (h : k ∉ m) :
    values (m.insert k a) = a :: m.values := by
  rw [values, AList.entries_insert_of_notMem h, map_cons]
  rfl

theorem values_perm_erase (h : m.lookup k = some a) :
    m.values.Perm (a :: values (m.erase k)) := by
  have hmem : k ∈ m.entries.keys := by
    rw [← AList.keys, ← AList.mem_keys, ← AList.lookup_isSome, h]
    rfl
  obtain ⟨b, before, rest, _, hentries, herase⟩ := exists_of_kerase hmem
  have hb : m.lookup k = some b := by
    rw [← Option.mem_def, AList.mem_lookup_iff, hentries]
    exact mem_append_right _ mem_cons_self
  rw [h] at hb
  cases hb
  have hrest : (m.erase k).entries = before ++ rest := herase
  rw [values, values, hentries, hrest, map_append, map_append, map_cons]
  exact perm_middle

theorem values_erase_of_lookup (h : m.lookup k = none) :
    values (m.erase k) = m.values := by
  have hnot : k ∉ m.entries.keys := AList.lookup_eq_none.mp h
  have hsame : (m.erase k).entries = m.entries := kerase_of_notMem_keys hnot
  rw [values, values, hsame]

theorem lookup_insert_eq_some {l : κ} {b : α} :
    (m.insert k b).lookup l = some a ↔ l = k ∧ b = a ∨ l ≠ k ∧ m.lookup l = some a := by
  by_cases h : l = k
  · rw [h, AList.lookup_insert, Option.some.injEq]
    simp
  · rw [AList.lookup_insert_ne h]
    simp [h]

theorem lookup_erase_eq_some {l : κ} :
    (m.erase k).lookup l = some a ↔ l ≠ k ∧ m.lookup l = some a := by
  by_cases h : l = k
  · rw [h, AList.lookup_erase]
    simp
  · rw [AList.lookup_erase_ne h]
    simp [h]

/-- The keys of the map as a set. -/
def keySet (m : AssocMap κ α) : Finset κ := m.keys.toFinset

theorem mem_keySet {m : AssocMap κ α} {k : κ} : k ∈ m.keySet ↔ ∃ a, m.lookup k = some a := by
  rw [keySet, mem_toFinset, ← AList.mem_keys, ← AList.lookup_isSome, Option.isSome_iff_exists]

/-- Change the value of one key, from the value it has now. -/
def update (m : AssocMap κ α) (k : κ) (f : Option α → α) : AssocMap κ α :=
  m.insert k (f (m.lookup k))

@[simp] theorem lookup_update_self (m : AssocMap κ α) (k : κ) (f : Option α → α) :
    (m.update k f).lookup k = some (f (m.lookup k)) :=
  AList.lookup_insert m

theorem lookup_update_of_ne {l : κ} (f : Option α → α) (h : l ≠ k) :
    (m.update k f).lookup l = m.lookup l :=
  AList.lookup_insert_ne h

theorem dlookup_kreplace (k l : κ) (a : α) (entries : List (Sigma (fun _ : κ => α))) :
    List.dlookup l (List.kreplace k a entries) =
      if l = k then (List.dlookup k entries).map (fun _ => a) else List.dlookup l entries := by
  induction entries with
  | nil =>
    rw [List.kreplace, lookmap_nil, dlookup_nil, dlookup_nil]
    exact (ite_self _).symm
  | cons s entries ih =>
    obtain ⟨k', a'⟩ := s
    by_cases hk : k = k'
    · subst hk
      have hfirst : List.kreplace k a (⟨k, a'⟩ :: entries) = ⟨k, a⟩ :: entries := by
        simp [List.kreplace]
      rw [hfirst, dlookup_cons_eq]
      by_cases hl : l = k
      · subst hl
        rw [if_pos rfl, dlookup_cons_eq]
        rfl
      · rw [if_neg hl, dlookup_cons_ne _ _ hl, dlookup_cons_ne _ _ hl]
    · have hrest : List.kreplace k a (⟨k', a'⟩ :: entries) =
          ⟨k', a'⟩ :: List.kreplace k a entries := by
        simp [List.kreplace, hk]
      rw [hrest, dlookup_cons_ne entries ⟨k', a'⟩ hk]
      by_cases hl : l = k'
      · subst hl
        rw [dlookup_cons_eq, if_neg (Ne.symm hk), dlookup_cons_eq]
      · rw [dlookup_cons_ne (List.kreplace k a entries) ⟨k', a'⟩ hl, ih,
          dlookup_cons_ne entries ⟨k', a'⟩ hl]

theorem lookup_replace (m : AssocMap κ α) (k l : κ) (a : α) :
    (m.replace k a).lookup l = if l = k then (m.lookup k).map (fun _ => a) else m.lookup l :=
  dlookup_kreplace k l a m.entries

theorem replace_of_lookup (h : m.lookup k = some a) :
    m.replace k a = m :=
  AList.ext (kreplace_self m.nodupKeys (AList.mem_lookup_iff.mp h))

/-- Change every value of a map and leave its keys and their order alone. -/
def mapValues (f : κ → α → β) (m : AssocMap κ α) : AssocMap κ β where
  entries := m.entries.map (fun s => ⟨s.1, f s.1 s.2⟩)
  nodupKeys := by
    have h : (m.entries.map Sigma.fst).Nodup := m.nodupKeys
    change ((m.entries.map _).map Sigma.fst).Nodup
    simpa [Function.comp_def] using h

omit [DecidableEq κ] in
theorem toPairs_mapValues (f : κ → α → β) (m : AssocMap κ α) :
    (m.mapValues f).toPairs = m.toPairs.map (fun p => (p.1, f p.1 p.2)) := by
  simp [toPairs, mapValues, Function.comp_def]

omit [DecidableEq κ] in
@[simp] theorem keys_mapValues (f : κ → α → β) (m : AssocMap κ α) :
    (m.mapValues f).keys = m.keys := by
  simp [AList.keys, mapValues, List.keys, Function.comp_def]

@[simp] theorem keySet_mapValues (f : κ → α → β) (m : AssocMap κ α) :
    (m.mapValues f).keySet = m.keySet := by
  simp [keySet]

end AssocMap

/-- The order in which a randomly seeded hash collection yields its elements. -/
structure IterationOrder where
  order : ∀ {α : Type}, List α → List α
  perm : ∀ {α : Type} (l : List α), (order l).Perm l

namespace IterationOrder

variable {α : Type}

def inserted : IterationOrder := ⟨id, fun l => List.Perm.refl l⟩

theorem mem_order (o : IterationOrder) {l : List α} {a : α} : a ∈ o.order l ↔ a ∈ l :=
  (o.perm l).mem_iff

end IterationOrder

def keepGreater {α : Type*} (key : α → ℕ) : Option α → α → Option α
  | none, a => some a
  | some b, a => if key b ≤ key a then some a else some b

/-- The last of the elements with the greatest key, in the order of the list. -/
def maxByKey {α : Type*} (key : α → ℕ) (l : List α) : Option α := l.foldl (keepGreater key) none

theorem keepGreater_cases {α : Type*} (key : α → ℕ) (best : Option α) (a : α) :
    keepGreater key best a = some a ∨ keepGreater key best a = best := by
  cases best with
  | none => exact .inl rfl
  | some b =>
    by_cases h : key b ≤ key a
    · exact .inl (if_pos h)
    · exact .inr (if_neg h)

theorem foldl_keepGreater_mem {α : Type*} {key : α → ℕ} {l : List α} {best : Option α} {a : α}
    (h : l.foldl (keepGreater key) best = some a) : best = some a ∨ a ∈ l := by
  induction l generalizing best with
  | nil => exact .inl h
  | cons x l ih =>
    rcases ih h with hx | hl
    · rcases keepGreater_cases key best x with hk | hk
      · rw [hk] at hx
        exact .inr (by simp [Option.some.inj hx])
      · exact .inl (hk ▸ hx)
    · exact .inr (mem_cons_of_mem _ hl)

theorem maxByKey_mem {α : Type*} {key : α → ℕ} {l : List α} {a : α}
    (h : maxByKey key l = some a) : a ∈ l := by
  rcases foldl_keepGreater_mem h with hn | hl
  · cases hn
  · exact hl

theorem key_le_keepGreater {α : Type*} (key : α → ℕ) (best : Option α) (a : α) :
    ∃ b, keepGreater key best a = some b ∧ key a ≤ key b ∧ ∀ c ∈ best, key c ≤ key b := by
  cases best with
  | none => exact ⟨a, rfl, le_rfl, fun c hc => by cases hc⟩
  | some b =>
    by_cases h : key b ≤ key a
    · refine ⟨a, if_pos h, le_rfl, ?_⟩
      rintro c ⟨⟩
      exact h
    · refine ⟨b, if_neg h, (not_le.mp h).le, ?_⟩
      rintro c ⟨⟩
      exact le_rfl

theorem foldl_keepGreater_ge {α : Type*} (key : α → ℕ) (l : List α) {best : Option α} {b : α}
    (h : best = some b) : ∃ a, l.foldl (keepGreater key) best = some a ∧ key b ≤ key a ∧
      ∀ c ∈ l, key c ≤ key a := by
  induction l generalizing best b with
  | nil => exact ⟨b, h, le_rfl, fun c hc => absurd hc not_mem_nil⟩
  | cons x l ih =>
    obtain ⟨y, hy, hx, hbest⟩ := key_le_keepGreater key best x
    obtain ⟨a, ha, hya, hl⟩ := ih hy
    refine ⟨a, ha, (hbest b h).trans hya, ?_⟩
    intro c hc
    rcases mem_cons.mp hc with rfl | hc
    · exact hx.trans hya
    · exact hl c hc

theorem maxByKey_ge {α : Type*} (key : α → ℕ) {l : List α} {b : α} (hb : b ∈ l) :
    ∃ a, maxByKey key l = some a ∧ ∀ c ∈ l, key c ≤ key a := by
  cases l with
  | nil => exact absurd hb not_mem_nil
  | cons x l =>
    obtain ⟨a, ha, hx, hl⟩ := foldl_keepGreater_ge key l (rfl : some x = some x)
    refine ⟨a, ha, ?_⟩
    intro c hc
    rcases mem_cons.mp hc with rfl | hc
    · exact hx
    · exact hl c hc
