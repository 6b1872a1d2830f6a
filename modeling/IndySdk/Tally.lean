import IndySdk.AssocMap
import Mathlib.Algebra.GroupWithZero.Nat
import Mathlib.Data.List.Perm.Basic

/-!
# Tallies of members in groups

Members of a set are counted in groups. When every member is counted in one group at most, the
sizes of the groups and the number of members that remain add up to the number of members.
-/

open AssocMap Finset

namespace Tally

variable {α : Type*} [DecidableEq α] {members : Finset α} {groups rest : List (Finset α)}
  {group : Finset α} {a : α}

/-- The members that are in none of the groups. -/
def remaining (members : Finset α) (groups : List (Finset α)) : Finset α :=
  members.filter (fun a => ∀ group ∈ groups, a ∉ group)

/-- Only members are counted, and each of them in one group at most. -/
structure CountedOnce (members : Finset α) (groups : List (Finset α)) : Prop where
  disjoint : groups.Pairwise Disjoint
  subset : ∀ group ∈ groups, group ⊆ members

theorem mem_remaining :
    a ∈ remaining members groups ↔ a ∈ members ∧ ∀ group ∈ groups, a ∉ group :=
  mem_filter

omit [DecidableEq α] in
theorem countedOnce_nil : CountedOnce members [] :=
  ⟨List.Pairwise.nil, fun _ hmem => absurd hmem List.not_mem_nil⟩

omit [DecidableEq α] in
theorem CountedOnce.tail (h : CountedOnce members (group :: rest)) : CountedOnce members rest :=
  ⟨h.disjoint.of_cons, fun g hg => h.subset g (List.mem_cons_of_mem _ hg)⟩

omit [DecidableEq α] in
theorem CountedOnce.perm {groups' : List (Finset α)} (h : CountedOnce members groups)
    (hperm : groups.Perm groups') : CountedOnce members groups' :=
  ⟨(hperm.pairwise_iff (fun hab => Disjoint.symm hab)).mp h.disjoint,
    fun g hg => h.subset g (hperm.mem_iff.mpr hg)⟩

omit [DecidableEq α] in
theorem CountedOnce.cons_empty (h : CountedOnce members rest) :
    CountedOnce members (∅ :: rest) := by
  refine ⟨List.pairwise_cons.mpr ⟨fun g _ => disjoint_empty_left g, h.disjoint⟩, ?_⟩
  intro g hg
  rcases List.mem_cons.mp hg with rfl | hg
  · exact empty_subset members
  · exact h.subset g hg

theorem CountedOnce.insert (h : CountedOnce members (group :: rest)) (ha : a ∈ members)
    (hrest : ∀ g ∈ rest, a ∉ g) : CountedOnce members (insert a group :: rest) := by
  obtain ⟨hfirst, hothers⟩ := List.pairwise_cons.mp h.disjoint
  refine ⟨List.pairwise_cons.mpr ⟨?_, hothers⟩, ?_⟩
  · intro g hg
    exact disjoint_insert_left.mpr ⟨hrest g hg, hfirst g hg⟩
  · intro g hg
    rcases List.mem_cons.mp hg with rfl | hg
    · exact insert_subset ha (h.subset group List.mem_cons_self)
    · exact h.subset g (List.mem_cons_of_mem _ hg)

theorem remaining_nil : remaining members [] = members :=
  filter_true_of_mem (fun _ _ _ hg => absurd hg List.not_mem_nil)

theorem remaining_cons : remaining members (group :: rest) = remaining members rest \ group := by
  ext a
  rw [mem_sdiff, mem_remaining, mem_remaining, List.forall_mem_cons]
  tauto

theorem CountedOnce.sum_card_add (h : CountedOnce members groups) :
    (groups.map Finset.card).sum + (remaining members groups).card = members.card := by
  induction groups with
  | nil => rw [remaining_nil, List.map_nil, List.sum_nil, Nat.zero_add]
  | cons group rest ih =>
    have hsubset : group ⊆ remaining members rest := by
      intro a ha
      refine mem_remaining.mpr ⟨h.subset group List.mem_cons_self ha, ?_⟩
      intro g hg
      exact disjoint_left.mp ((List.pairwise_cons.mp h.disjoint).1 g hg) ha
    have hcard := card_sdiff_add_card_eq_card hsubset
    have hrest := ih h.tail
    rw [remaining_cons, List.map_cons, List.sum_cons]
    omega

theorem card_union_remaining (h : group ∈ groups) :
    (group ∪ remaining members groups).card = group.card + (remaining members groups).card := by
  refine card_union_of_disjoint (disjoint_left.mpr ?_)
  intro a ha hr
  exact (mem_remaining.mp hr).2 group h ha

/-! ### Buckets -/

section Buckets

variable {κ β : Type*} [DecidableEq κ] {size : β → Finset α} {m : AssocMap κ β} {k : κ}
  {fixed : List (Finset α)}

omit [DecidableEq α] in
theorem exists_of_mem_values_erase {b : β} (h : b ∈ values (m.erase k)) :
    ∃ l, l ≠ k ∧ m.lookup l = some b := by
  obtain ⟨l, hl⟩ := mem_values.mp h
  have hne : l ≠ k := by
    intro he
    rw [he, AList.lookup_erase] at hl
    cases hl
  exact ⟨l, hne, by rwa [AList.lookup_erase_ne hne] at hl⟩

omit [DecidableEq α] in
theorem CountedOnce.bucket (h : CountedOnce members (fixed ++ m.values.map size)) (k : κ) :
    CountedOnce members (((m.lookup k).map size).getD ∅ ::
      (fixed ++ (values (m.erase k)).map size)) := by
  cases hlookup : m.lookup k with
  | none =>
    rw [values_erase_of_lookup hlookup]
    exact h.cons_empty
  | some b =>
    have hvalues : (fixed ++ m.values.map size).Perm
        (fixed ++ size b :: (values (m.erase k)).map size) :=
      ((values_perm_erase hlookup).map size).append_left fixed
    exact h.perm (hvalues.trans List.perm_middle)

theorem CountedOnce.insert_bucket (h : CountedOnce members (fixed ++ m.values.map size))
    (ha : a ∈ members) (hfixed : ∀ group ∈ fixed, a ∉ group)
    (hother : ∀ l b, l ≠ k → m.lookup l = some b → a ∉ size b) {b : β}
    (hb : size b = Insert.insert a (((m.lookup k).map size).getD ∅)) :
    CountedOnce members (fixed ++ (values (m.insert k b)).map size) := by
  have hrest : ∀ group ∈ fixed ++ (values (m.erase k)).map size, a ∉ group := by
    intro group hgroup
    rcases List.mem_append.mp hgroup with hgroup | hgroup
    · exact hfixed group hgroup
    · obtain ⟨c, hc, rfl⟩ := List.mem_map.mp hgroup
      obtain ⟨l, hne, hlookup⟩ := exists_of_mem_values_erase hc
      exact hother l c hne hlookup
  have hinsert := ((h.bucket k).insert ha hrest).perm List.perm_middle.symm
  rw [values_insert, List.map_cons, hb]
  exact hinsert

end Buckets

end Tally
