import IndySdk.KeyRewrite
import Mathlib.Data.List.Perm.Basic
import Mathlib.Data.List.Nodup

/-!
# When rewriting renames every key at once

The number of members of an object never grows while its keys are rewritten, and falls exactly
where a member takes the place of another one. An object that keeps all its members is the one
whose keys were renamed at once.
-/

namespace IndySdk.Vcx.Invite

open List Json

/-! ## Sizes of maps of members -/

section

variable {members : List (String × Json)} {k : String}

theorem member?_of_mem (h : (members.map Prod.fst).Pairwise (· < ·)) {j : Json}
    (hm : (k, j) ∈ members) : Json.member? k members = some j := by
  induction members with
  | nil => cases hm
  | cons m members ih =>
      rw [map_cons, pairwise_cons] at h
      rw [member?_cons]
      obtain rfl | hm := mem_cons.mp hm
      · exact if_pos rfl
      · have hne : m.1 ≠ k := String.ne_of_lt (h.1 k (mem_map_of_mem hm))
        rw [if_neg hne]
        exact ih h.2 hm

theorem exists_member? (h : k ∈ members.map Prod.fst) :
    ∃ j, Json.member? k members = some j := by
  cases hj : Json.member? k members with
  | none => exact absurd h (member?_eq_none_iff.mp hj)
  | some j => exact ⟨j, rfl⟩

theorem mem_keys_of_member? {j : Json} (h : Json.member? k members = some j) :
    k ∈ members.map Prod.fst :=
  mem_map_of_mem (f := Prod.fst) (mem_of_member? h)

theorem mem_keys_filter {x : String} :
    x ∈ (members.filter (fun m => m.1 ≠ k)).map Prod.fst ↔ x ∈ members.map Prod.fst ∧ x ≠ k := by
  rw [← not_iff_not, ← member?_eq_none_iff, member?_filter_ne, not_and_or, not_not,
    ← member?_eq_none_iff]
  by_cases h : x = k
  · rw [if_pos h]
    exact iff_of_true rfl (.inr h)
  · rw [if_neg h]
    exact (or_iff_left h).symm

theorem filter_sorted (h : (members.map Prod.fst).Pairwise (· < ·)) (k : String) :
    ((members.filter (fun m => m.1 ≠ k)).map Prod.fst).Pairwise (· < ·) :=
  h.sublist (filter_sublist.map Prod.fst)

theorem length_filter (h : (members.map Prod.fst).Pairwise (· < ·))
    (hk : k ∈ members.map Prod.fst) :
    (members.filter (fun m => m.1 ≠ k)).length + 1 = members.length := by
  have hperm : (k :: (members.filter (fun m => m.1 ≠ k)).map Prod.fst).Perm
      (members.map Prod.fst) := by
    apply (perm_ext_iff_of_nodup _ (nodup_of_sorted h)).mpr
    · intro x
      rw [mem_cons, mem_keys_filter]
      by_cases hx : x = k
      · rw [hx]
        exact iff_of_true (.inl rfl) hk
      · exact ⟨fun h => (h.resolve_left hx).1, fun h => .inr ⟨h, hx⟩⟩
    · rw [nodup_cons]
      exact ⟨fun h => (mem_keys_filter.mp h).2 rfl, nodup_of_sorted (filter_sorted h k)⟩
  have hlength := hperm.length_eq
  rwa [length_cons, length_map, length_map] at hlength

theorem length_putMember (h : (members.map Prod.fst).Pairwise (· < ·)) (k : String) (j : Json) :
    (Json.putMember k j members).length =
      if k ∈ members.map Prod.fst then members.length else members.length + 1 := by
  have hput : ((Json.putMember k j members).map Prod.fst).Nodup :=
    nodup_of_sorted (putMember_sorted h)
  have hnames : ∀ l : List (String × Json), l.length = (l.map Prod.fst).length :=
    fun l => (length_map Prod.fst).symm
  rw [hnames (Json.putMember k j members), hnames members]
  by_cases hk : k ∈ members.map Prod.fst
  · rw [if_pos hk]
    apply List.Perm.length_eq
    apply (perm_ext_iff_of_nodup hput (nodup_of_sorted h)).mpr
    intro x
    rw [mem_keys_putMember]
    exact or_iff_right_of_imp (fun hx => hx ▸ hk)
  · rw [if_neg hk, ← @length_cons _ k]
    apply List.Perm.length_eq
    apply (perm_ext_iff_of_nodup hput
      (nodup_cons.mpr ⟨hk, nodup_of_sorted h⟩)).mpr
    intro x
    rw [mem_keys_putMember, mem_cons]

end

/-! ## Taking members out and putting them back -/

section

variable (f : String → String) (g : String → Json → Json)

/-- A round of the loop whose value needs no further computation. -/
def placeMember (k : String) (map : List (String × Json)) : List (String × Json) :=
  match Json.member? k map with
  | none => map
  | some j => Json.putMember (f k) (g k j) (map.filter (fun m => m.1 ≠ k))

/-- The keys `waiting` are still in the map when those of `placed` are renamed, the last first. -/
def Fits (waiting placed : List String) : Prop :=
  (∀ k ∈ placed, f k ∉ waiting) ∧ placed.Pairwise fun k l => f l ≠ k ∧ f l ≠ f k

theorem fits_cons {waiting placed : List String} {k : String} :
    Fits f waiting (k :: placed) ↔
      Fits f (waiting ++ [k]) placed ∧ f k ∉ waiting ∧ f k ∉ placed.map f := by
  rw [Fits, Fits, forall_mem_cons, pairwise_cons]
  constructor
  · rintro ⟨⟨hk, hplaced⟩, hnew, hpair⟩
    refine ⟨⟨fun l hl hin => ?_, hpair⟩, hk, fun hin => ?_⟩
    · obtain hin | hin := mem_append.mp hin
      · exact hplaced l hl hin
      · exact (hnew l hl).1 (mem_singleton.mp hin)
    · obtain ⟨l, hl, hlk⟩ := mem_map.mp hin
      exact (hnew l hl).2 hlk
  · rintro ⟨⟨hplaced, hpair⟩, hk, hnew⟩
    refine ⟨⟨hk, fun l hl hin => hplaced l hl (mem_append_left _ hin)⟩,
      fun l hl => ⟨fun hlk => ?_, fun hlk => ?_⟩, hpair⟩
    · exact hplaced l hl (mem_append_right _ (mem_singleton.mpr hlk))
    · exact hnew (mem_map.mpr ⟨l, hl, hlk⟩)

/-- The map after the keys `placed` of an object have been renamed. -/
structure Placed (members : List (String × Json)) (waiting placed : List String)
    (map : List (String × Json)) : Prop where
  keys : waiting ++ placed = members.map Prod.fst
  distinct : (waiting ++ placed).Nodup
  sorted : (map.map Prod.fst).Pairwise (· < ·)
  covered : ∀ x ∈ map.map Prod.fst, x ∈ waiting ∨ x ∈ placed.map f
  present : ∀ k ∈ waiting, k ∈ map.map Prod.fst
  length_le : map.length ≤ members.length
  length_eq : map.length = members.length ↔ Fits f waiting placed
  kept : Fits f waiting placed → ∀ k ∈ waiting, Json.member? k map = Json.member? k members
  renamed : Fits f waiting placed → ∀ k ∈ placed,
    Json.member? (f k) map = (Json.member? k members).map (g k)

theorem placed_nil {members : List (String × Json)}
    (h : (members.map Prod.fst).Pairwise (· < ·)) :
    Placed f g members (members.map Prod.fst) [] members where
  keys := append_nil _
  distinct := by
    rw [append_nil]
    exact nodup_of_sorted h
  sorted := h
  covered _ hx := Or.inl hx
  present _ hk := hk
  length_le := Nat.le_refl _
  length_eq := iff_of_true rfl ⟨fun _ h => absurd h not_mem_nil, List.Pairwise.nil⟩
  kept _ _ _ := rfl
  renamed _ _ h := absurd h not_mem_nil

variable {f g} {members map : List (String × Json)} {waiting placed : List String} {k : String}

theorem Placed.arrived (h : Placed f g members waiting placed map) (hfits : Fits f waiting placed)
    {l : String} (hl : l ∈ placed) : f l ∈ map.map Prod.fst := by
  have hkey : l ∈ members.map Prod.fst := by
    rw [← h.keys]
    exact mem_append_right _ hl
  obtain ⟨j, hj⟩ := exists_member? hkey
  have hlookup := h.renamed hfits l hl
  rw [hj] at hlookup
  exact mem_keys_of_member? hlookup

theorem Placed.meets_iff (h : Placed f g members (waiting ++ [k]) placed map)
    (hk : k ∉ waiting) (hfits : Fits f (waiting ++ [k]) placed) :
    f k ∈ (map.filter (fun m => m.1 ≠ k)).map Prod.fst ↔ f k ∈ waiting ∨ f k ∈ placed.map f := by
  rw [mem_keys_filter]
  constructor
  · rintro ⟨hin, hne⟩
    obtain hin | hin := h.covered (f k) hin
    · obtain hin | hin := mem_append.mp hin
      · exact .inl hin
      · exact absurd (mem_singleton.mp hin) hne
    · exact .inr hin
  · rintro (hin | hin)
    · exact ⟨h.present _ (mem_append_left _ hin), fun he => hk (he ▸ hin)⟩
    · obtain ⟨l, hl, hlk⟩ := mem_map.mp hin
      rw [← hlk]
      refine ⟨h.arrived hfits hl, fun he => hfits.1 l hl ?_⟩
      exact mem_append_right _ (mem_singleton.mpr he)

theorem Placed.step (h : Placed f g members (waiting ++ [k]) placed map) :
    Placed f g members waiting (k :: placed) (placeMember f g k map) := by
  have hdistinct := h.distinct
  rw [append_assoc, singleton_append] at hdistinct
  have hk : k ∉ waiting := by
    intro hin
    exact (disjoint_of_nodup_append hdistinct) hin mem_cons_self
  have hplaced : k ∉ placed := (nodup_cons.mp hdistinct.of_append_right).1
  have hkmap : k ∈ map.map Prod.fst :=
    h.present k (mem_append_right _ (mem_singleton.mpr rfl))
  obtain ⟨j, hj⟩ := exists_member? hkmap
  have heq : placeMember f g k map =
      Json.putMember (f k) (g k j) (map.filter (fun m => m.1 ≠ k)) := by
    rw [placeMember, hj]
  have hout := filter_sorted h.sorted k
  have hlength := length_filter h.sorted hkmap
  have hput := length_putMember hout (f k) (g k j)
  have hle := h.length_le
  rw [heq]
  constructor
  · rw [← h.keys, append_assoc, singleton_append]
  · exact hdistinct
  · exact putMember_sorted hout
  · intro x hx
    rw [mem_keys_putMember, mem_keys_filter] at hx
    rw [map_cons, mem_cons]
    obtain rfl | ⟨hx, hne⟩ := hx
    · exact .inr (.inl rfl)
    · obtain hx | hx := h.covered x hx
      · obtain hx | hx := mem_append.mp hx
        · exact .inl hx
        · exact absurd (mem_singleton.mp hx) hne
      · exact .inr (.inr hx)
  · intro x hx
    rw [mem_keys_putMember, mem_keys_filter]
    exact .inr ⟨h.present x (mem_append_left _ hx), fun he => hk (he ▸ hx)⟩
  · split_ifs at hput <;> omega
  · rw [fits_cons, ← h.length_eq]
    by_cases hall : map.length = members.length
    · have hmeets := h.meets_iff hk (h.length_eq.mp hall)
      rw [← not_or, ← hmeets]
      by_cases hin : f k ∈ (map.filter (fun m => m.1 ≠ k)).map Prod.fst
      · rw [if_pos hin] at hput
        exact iff_of_false (by omega) (fun h => h.2 hin)
      · rw [if_neg hin] at hput
        exact iff_of_true (by omega) ⟨hall, hin⟩
    · refine iff_of_false ?_ (fun h => hall h.1)
      split_ifs at hput <;> omega
  · intro hfits x hx
    obtain ⟨hfits', hwait, _⟩ := (fits_cons f).mp hfits
    have hne : x ≠ f k := fun he => hwait (he ▸ hx)
    have hne' : x ≠ k := fun he => hk (he ▸ hx)
    rw [member?_putMember_of_ne hne, member?_filter_ne, if_neg hne']
    exact h.kept hfits' x (mem_append_left _ hx)
  · intro hfits l hl
    obtain ⟨hfits', hwait, hnew⟩ := (fits_cons f).mp hfits
    obtain rfl | hl := mem_cons.mp hl
    · rw [member?_putMember_self,
        ← h.kept hfits' l (mem_append_right _ (mem_singleton.mpr rfl)), hj]
      rfl
    · have hne : f l ≠ f k := fun he => hnew (mem_map.mpr ⟨l, hl, he⟩)
      have hne' : f l ≠ k := fun he =>
        hfits'.1 l hl (mem_append_right _ (mem_singleton.mpr he))
      rw [member?_putMember_of_ne hne, member?_filter_ne, if_neg hne']
      exact h.renamed hfits' l hl

theorem placed_foldr (h : (members.map Prod.fst).Pairwise (· < ·))
    (hkeys : waiting ++ placed = members.map Prod.fst) :
    Placed f g members waiting placed (placed.foldr (placeMember f g) members) := by
  induction placed generalizing waiting with
  | nil =>
      rw [append_nil] at hkeys
      rw [hkeys]
      exact placed_nil f g h
  | cons k placed ih =>
      rw [foldr_cons]
      apply Placed.step
      apply ih
      rw [append_assoc, singleton_append]
      exact hkeys

/-! ## Building the renamed object from nothing -/

variable (f g) in
def gatherMembers (members : List (String × Json)) : List (String × Json) :=
  members.foldr (fun m map => Json.putMember (f m.1) (g m.1 m.2) map) []

theorem gatherMembers_sorted (members : List (String × Json)) :
    ((gatherMembers f g members).map Prod.fst).Pairwise (· < ·) := by
  induction members with
  | nil => exact List.Pairwise.nil
  | cons m members ih => exact putMember_sorted ih

theorem mem_gatherMembers {members : List (String × Json)} {x : String} :
    x ∈ (gatherMembers f g members).map Prod.fst ↔ x ∈ members.map (fun m => f m.1) := by
  induction members with
  | nil => exact Iff.rfl
  | cons m members ih =>
      rw [map_cons, mem_cons, ← ih]
      exact mem_keys_putMember

theorem length_gatherMembers (members : List (String × Json)) :
    (gatherMembers f g members).length ≤ members.length ∧
      ((members.map (fun m => f m.1)).Nodup →
        (gatherMembers f g members).length = members.length) := by
  induction members with
  | nil => exact ⟨Nat.le_refl 0, fun _ => rfl⟩
  | cons m members ih =>
      have hput := length_putMember (gatherMembers_sorted (f := f) (g := g) members) (f m.1)
        (g m.1 m.2)
      have heq : gatherMembers f g (m :: members) =
        Json.putMember (f m.1) (g m.1 m.2) (gatherMembers f g members) := rfl
      rw [heq, length_cons, map_cons, nodup_cons]
      constructor
      · split_ifs at hput <;> omega
      · rintro ⟨hnew, hnodup⟩
        rw [if_neg (fun hin => hnew (mem_gatherMembers.mp hin))] at hput
        have := ih.2 hnodup
        omega

theorem member?_gatherMembers {members : List (String × Json)}
    (h : (members.map (fun m => f m.1)).Nodup) {k : String} {j : Json} (hm : (k, j) ∈ members) :
    Json.member? (f k) (gatherMembers f g members) = some (g k j) := by
  induction members with
  | nil => cases hm
  | cons m members ih =>
      rw [map_cons, nodup_cons] at h
      have heq : gatherMembers f g (m :: members) =
        Json.putMember (f m.1) (g m.1 m.2) (gatherMembers f g members) := rfl
      rw [heq]
      obtain rfl | hm := mem_cons.mp hm
      · exact member?_putMember_self _ _ _
      · have hne : f k ≠ f m.1 := by
          intro he
          apply h.1
          rw [← he]
          exact mem_map_of_mem (f := fun m => f m.1) hm
        rw [member?_putMember_of_ne hne]
        exact ih h.2 hm

/-- The loop over the keys gives the object renamed at once exactly where no key takes the place
of another one and the loop makes of each value what it is to become. -/
theorem foldr_eq_gatherMembers_iff {g' : String → Json → Json}
    (h : (members.map Prod.fst).Pairwise (· < ·)) :
    ((members.map (fun m => f m.1)).Nodup ∧
        (members.map Prod.fst).foldr (placeMember f g) members = gatherMembers f g' members) ↔
      members.Pairwise (fun m n => f n.1 ≠ m.1 ∧ f n.1 ≠ f m.1) ∧
        ∀ m ∈ members, g m.1 m.2 = g' m.1 m.2 := by
  have hplaced : Placed f g members [] (members.map Prod.fst)
      ((members.map Prod.fst).foldr (placeMember f g) members) :=
    placed_foldr h (nil_append _)
  have hfits : Fits f [] (members.map Prod.fst) ↔
      members.Pairwise (fun m n => f n.1 ≠ m.1 ∧ f n.1 ≠ f m.1) := by
    rw [Fits, pairwise_map]
    exact and_iff_right (fun _ _ => not_mem_nil)
  generalize (members.map Prod.fst).foldr (placeMember f g) members = map at hplaced ⊢
  rw [← hfits]
  have hrenamed : Fits f [] (members.map Prod.fst) → ∀ m ∈ members,
      Json.member? (f m.1) map = some (g m.1 m.2) := by
    intro hf m hm
    rw [hplaced.renamed hf m.1 (mem_map_of_mem hm), member?_of_mem h hm]
    rfl
  constructor
  · rintro ⟨hnodup, heq⟩
    have hf : Fits f [] (members.map Prod.fst) := by
      apply hplaced.length_eq.mp
      rw [heq]
      exact (length_gatherMembers members).2 hnodup
    refine ⟨hf, fun m hm => ?_⟩
    have hone := hrenamed hf m hm
    rw [heq, member?_gatherMembers hnodup hm] at hone
    exact (Option.some.inj hone).symm
  · rintro ⟨hf, hvalues⟩
    have hnodup : (members.map (fun m => f m.1)).Nodup := by
      rw [nodup_iff_pairwise_ne, pairwise_map]
      exact (hfits.mp hf).imp (fun h => h.2.symm)
    refine ⟨hnodup, eq_of_sorted hplaced.sorted (gatherMembers_sorted members) ?_⟩
    intro x
    by_cases hx : x ∈ members.map (fun m => f m.1)
    · obtain ⟨m, hm, rfl⟩ := mem_map.mp hx
      rw [hrenamed hf m hm, member?_gatherMembers hnodup hm, hvalues m hm]
    · have hout : x ∉ map.map Prod.fst := by
        intro hin
        obtain hin | hin := hplaced.covered x hin
        · exact not_mem_nil hin
        · rw [map_map] at hin
          exact hx hin
      rw [member?_eq_none_iff.mpr hout,
        member?_eq_none_iff.mpr (fun hin => hx (mem_gatherMembers.mp hin))]

end

end IndySdk.Vcx.Invite
