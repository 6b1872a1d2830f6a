import IndySdk.ProofCreation

/-!
# The groups of the prover

The groups made from a selection hold each chosen referent once, under the key chosen for it
(`Grouped`). One turn of the loop reports the referents of one group with its index (`Placed`), and
the loop keeps count of what was proved with which credential.
-/

open Outcome List

namespace AssocMap

variable {κ α γ : Type*} [DecidableEq κ]

theorem flatMap_values_update {π : γ → List α} {m : AssocMap κ γ} {k : κ} {f : Option γ → γ}
    {l : List α} (hsome : ∀ g, π (f (some g)) = π g ++ l) (hnone : π (f none) = l) :
    ((m.update k f).values.flatMap π).Perm (m.values.flatMap π ++ l) := by
  rw [update, values_insert, flatMap_cons]
  cases hk : m.lookup k with
  | none =>
    rw [hnone, values_erase_of_lookup hk]
    exact perm_append_comm
  | some g =>
    have hperm := (values_perm_erase hk).flatMap_right π
    rw [flatMap_cons] at hperm
    rw [hsome, append_assoc]
    refine (perm_append_comm.append_left (π g)).trans ?_
    rw [← append_assoc]
    exact hperm.symm.append_right l

omit [DecidableEq κ] in
theorem keys_eq_map_toPairs (m : AssocMap κ α) : m.keys = m.toPairs.map Prod.fst := by
  rw [AList.keys, List.keys, toPairs, map_map]
  rfl

theorem length_values_update_le (m : AssocMap κ α) (k : κ) (f : Option α → α) :
    (m.update k f).values.length ≤ m.values.length + 1 := by
  rw [update, values_insert, length_cons]
  cases hk : m.lookup k with
  | none => rw [values_erase_of_lookup hk]
  | some a =>
    have hlength := (values_perm_erase hk).length_eq
    rw [length_cons] at hlength
    omega

theorem forall_update {π : γ → List α} {P : κ → α → Prop} {m : AssocMap κ γ} {k : κ}
    {f : Option γ → γ} {l : List α} (h : ∀ key g, m.lookup key = some g → ∀ a ∈ π g, P key a)
    (hsome : ∀ g, π (f (some g)) = π g ++ l) (hnone : π (f none) = l) (hl : ∀ a ∈ l, P k a) :
    ∀ key g, (m.update k f).lookup key = some g → ∀ a ∈ π g, P key a := by
  intro key g hg a ha
  by_cases hkey : key = k
  · rw [hkey, lookup_update_self] at hg
    rw [hkey]
    cases hk : m.lookup k with
    | none =>
      rw [hk] at hg
      cases hg
      rw [hnone] at ha
      exact hl a ha
    | some old =>
      rw [hk] at hg
      cases hg
      rw [hsome] at ha
      rcases mem_append.mp ha with ha | ha
      · exact h k old hk a ha
      · exact hl a ha
  · rw [lookup_update_of_ne f hkey] at hg
    exact h key g hg a ha

end AssocMap

namespace IndySdk.Anoncreds

variable {cl : ClCrypto} {prover : ClProver cl} {toLowercase : String → String}
  {order : IterationOrder} {overflowChecks : Bool} {proofReq : ProofRequest cl}
  {requested : RequestedCredentials}

/-- The attribute is requested by the proof request and chosen to be proved under the key. -/
def ChosenAttribute (proofReq : ProofRequest cl) (requested : RequestedCredentials)
    (key : ProvingCredentialKey) (info : RequestedAttributeInfo) : Prop :=
  proofReq.requestedAttributes.lookup info.attrReferent = some info.attrInfo ∧
    ∃ choice, requested.requestedAttributes.lookup info.attrReferent = some choice ∧
      choice.key = key ∧ choice.revealed = info.revealed

def ChosenPredicate (proofReq : ProofRequest cl) (requested : RequestedCredentials)
    (key : ProvingCredentialKey) (info : RequestedPredicateInfo) : Prop :=
  proofReq.requestedPredicates.lookup info.predicateReferent = some info.predicateInfo ∧
    requested.requestedPredicates.lookup info.predicateReferent = some key

/-- The groups hold what was requested, each under the key chosen for it. -/
structure Grouped (proofReq : ProofRequest cl) (requested : RequestedCredentials)
    (attrs : List RequestedAttributeInfo) (predicates : List RequestedPredicateInfo)
    (groups : AssocMap ProvingCredentialKey ProvedGroup) : Prop where
  heldAttrs : (groups.values.flatMap Prod.fst).Perm attrs
  heldPredicates : (groups.values.flatMap Prod.snd).Perm predicates
  length_le : groups.values.length ≤ attrs.length + predicates.length
  chosenAttr : ∀ key group, groups.lookup key = some group →
    ∀ info ∈ group.1, ChosenAttribute proofReq requested key info
  chosenPredicate : ∀ key group, groups.lookup key = some group →
    ∀ info ∈ group.2, ChosenPredicate proofReq requested key info

theorem grouped_empty : Grouped proofReq requested [] [] ∅ where
  heldAttrs := List.Perm.nil
  heldPredicates := List.Perm.nil
  length_le := le_rfl
  chosenAttr _ _ h := by cases h
  chosenPredicate _ _ h := by cases h

theorem Grouped.groupAttribute {attrs : List RequestedAttributeInfo}
    {predicates : List RequestedPredicateInfo}
    {groups groups' : AssocMap ProvingCredentialKey ProvedGroup}
    (h : Grouped proofReq requested attrs predicates groups)
    {entry : String × RequestedAttribute}
    (hentry : requested.requestedAttributes.lookup entry.1 = some entry.2)
    (hstep : groupAttribute proofReq groups entry = .ok groups') :
    ∃ info, info.attrReferent = entry.1 ∧
      Grouped proofReq requested (attrs ++ [info]) predicates groups' := by
  obtain ⟨info, hinfo, hstep⟩ := bind_eq_ok_iff.mp hstep
  obtain ⟨attrInfo, hattr, hinfo⟩ := bind_eq_ok_iff.mp hinfo
  cases hinfo
  cases hstep
  have hattr' := ofOption_eq_ok.mp hattr
  refine ⟨⟨entry.1, attrInfo, entry.2.revealed⟩, rfl, ?_⟩
  have hsome : ∀ group : ProvedGroup, (withAttribute ⟨entry.1, attrInfo, entry.2.revealed⟩
      (some group)).1 = group.1 ++ [⟨entry.1, attrInfo, entry.2.revealed⟩] := fun _ => rfl
  have hkept : ∀ group : ProvedGroup, (withAttribute ⟨entry.1, attrInfo, entry.2.revealed⟩
      (some group)).2 = group.2 ++ [] := fun _ => (append_nil _).symm
  constructor
  · exact (AssocMap.flatMap_values_update hsome rfl).trans (h.heldAttrs.append_right _)
  · have hperm := @AssocMap.flatMap_values_update _ _ _ _ _ groups entry.2.key _ _ hkept rfl
    rw [append_nil] at hperm
    exact hperm.trans h.heldPredicates
  · rw [length_append, length_singleton, Nat.add_right_comm]
    exact (AssocMap.length_values_update_le _ _ _).trans (Nat.succ_le_succ h.length_le)
  · refine AssocMap.forall_update h.chosenAttr hsome rfl ?_
    intro info hinfo
    rw [mem_singleton.mp hinfo]
    exact ⟨hattr', entry.2, hentry, rfl, rfl⟩
  · exact AssocMap.forall_update h.chosenPredicate hkept rfl
      (fun _ hinfo => absurd hinfo not_mem_nil)

theorem Grouped.groupPredicate {attrs : List RequestedAttributeInfo}
    {predicates : List RequestedPredicateInfo}
    {groups groups' : AssocMap ProvingCredentialKey ProvedGroup}
    (h : Grouped proofReq requested attrs predicates groups)
    {entry : String × ProvingCredentialKey}
    (hentry : requested.requestedPredicates.lookup entry.1 = some entry.2)
    (hstep : groupPredicate proofReq groups entry = .ok groups') :
    ∃ info, info.predicateReferent = entry.1 ∧
      Grouped proofReq requested attrs (predicates ++ [info]) groups' := by
  obtain ⟨info, hinfo, hstep⟩ := bind_eq_ok_iff.mp hstep
  obtain ⟨predicateInfo, hpredicate, hinfo⟩ := bind_eq_ok_iff.mp hinfo
  cases hinfo
  cases hstep
  have hpredicate' := ofOption_eq_ok.mp hpredicate
  refine ⟨⟨entry.1, predicateInfo⟩, rfl, ?_⟩
  have hsome : ∀ group : ProvedGroup, (withPredicate ⟨entry.1, predicateInfo⟩ (some group)).2 =
      group.2 ++ [⟨entry.1, predicateInfo⟩] := fun _ => rfl
  have hkept : ∀ group : ProvedGroup, (withPredicate ⟨entry.1, predicateInfo⟩ (some group)).1 =
      group.1 ++ [] := fun _ => (append_nil _).symm
  constructor
  · have hperm := @AssocMap.flatMap_values_update _ _ _ _ _ groups entry.2 _ _ hkept rfl
    rw [append_nil] at hperm
    exact hperm.trans h.heldAttrs
  · exact (AssocMap.flatMap_values_update hsome rfl).trans (h.heldPredicates.append_right _)
  · rw [length_append, length_singleton, ← Nat.add_assoc]
    exact (AssocMap.length_values_update_le _ _ _).trans (Nat.succ_le_succ h.length_le)
  · exact AssocMap.forall_update h.chosenAttr hkept rfl
      (fun _ hinfo => absurd hinfo not_mem_nil)
  · refine AssocMap.forall_update h.chosenPredicate hsome rfl ?_
    intro info hinfo
    rw [mem_singleton.mp hinfo]
    exact ⟨hpredicate', hentry⟩

variable {groups : AssocMap ProvingCredentialKey ProvedGroup}

theorem groupAttributes_grouped {entries : List (String × RequestedAttribute)}
    {attrs : List RequestedAttributeInfo} {predicates : List RequestedPredicateInfo}
    {groups' : AssocMap ProvingCredentialKey ProvedGroup}
    (h : Grouped proofReq requested attrs predicates groups)
    (hentries : ∀ entry ∈ entries, requested.requestedAttributes.lookup entry.1 = some entry.2)
    (hrun : entries.foldlM (groupAttribute proofReq) groups = .ok groups') :
    ∃ more, more.map RequestedAttributeInfo.attrReferent = entries.map Prod.fst ∧
      Grouped proofReq requested (attrs ++ more) predicates groups' := by
  induction entries generalizing attrs groups with
  | nil =>
    cases hrun
    exact ⟨[], rfl, by rwa [append_nil]⟩
  | cons entry entries ih =>
    rw [foldlM_cons] at hrun
    obtain ⟨next, hstep, hrun⟩ := bind_eq_ok_iff.mp hrun
    obtain ⟨info, hinfo, hnext⟩ := h.groupAttribute (hentries entry mem_cons_self) hstep
    obtain ⟨more, hmore, hgrouped⟩ := ih hnext
      (fun e he => hentries e (mem_cons_of_mem entry he)) hrun
    refine ⟨info :: more, by rw [map_cons, map_cons, hinfo, hmore], ?_⟩
    rwa [append_assoc] at hgrouped

theorem groupPredicates_grouped {entries : List (String × ProvingCredentialKey)}
    {attrs : List RequestedAttributeInfo} {predicates : List RequestedPredicateInfo}
    {groups' : AssocMap ProvingCredentialKey ProvedGroup}
    (h : Grouped proofReq requested attrs predicates groups)
    (hentries : ∀ entry ∈ entries, requested.requestedPredicates.lookup entry.1 = some entry.2)
    (hrun : entries.foldlM (groupPredicate proofReq) groups = .ok groups') :
    ∃ more, more.map RequestedPredicateInfo.predicateReferent = entries.map Prod.fst ∧
      Grouped proofReq requested attrs (predicates ++ more) groups' := by
  induction entries generalizing predicates groups with
  | nil =>
    cases hrun
    exact ⟨[], rfl, by rwa [append_nil]⟩
  | cons entry entries ih =>
    rw [foldlM_cons] at hrun
    obtain ⟨next, hstep, hrun⟩ := bind_eq_ok_iff.mp hrun
    obtain ⟨info, hinfo, hnext⟩ := h.groupPredicate (hentries entry mem_cons_self) hstep
    obtain ⟨more, hmore, hgrouped⟩ := ih hnext
      (fun e he => hentries e (mem_cons_of_mem entry he)) hrun
    refine ⟨info :: more, by rw [map_cons, map_cons, hinfo, hmore], ?_⟩
    rwa [append_assoc] at hgrouped

theorem prepare_grouped (h : prepareCredentialsForProving requested proofReq = .ok groups) :
    ∃ attrs predicates,
      attrs.map RequestedAttributeInfo.attrReferent = requested.requestedAttributes.keys ∧
      predicates.map RequestedPredicateInfo.predicateReferent =
        requested.requestedPredicates.keys ∧
      Grouped proofReq requested attrs predicates groups := by
  obtain ⟨next, hattrs, hpredicates⟩ := bind_eq_ok_iff.mp h
  obtain ⟨attrs, hnames, hgrouped⟩ := groupAttributes_grouped grouped_empty
    (fun entry hentry => AssocMap.mem_toPairs.mp hentry) hattrs
  obtain ⟨predicates, hnames', hgrouped⟩ := groupPredicates_grouped hgrouped
    (fun entry hentry => AssocMap.mem_toPairs.mp hentry) hpredicates
  rw [nil_append, nil_append] at hgrouped
  rw [← AssocMap.keys_eq_map_toPairs] at hnames hnames'
  exact ⟨attrs, predicates, hnames, hnames', hgrouped⟩

/-- Every referent is where it was put, and no other is there. -/
structure PlacedIn {β : Type} (index : β → Int) (m : AssocMap String β)
    (done : List (ℕ × String)) : Prop where
  found : ∀ place ∈ done, ∃ x, m.lookup place.2 = some x ∧ index x = place.1
  only : ∀ referent x, m.lookup referent = some x → ∃ place ∈ done, place.2 = referent

theorem placedIn_empty {β : Type} (index : β → Int) :
    PlacedIn index (∅ : AssocMap String β) [] where
  found _ hplace := absurd hplace not_mem_nil
  only _ _ h := by cases h

theorem PlacedIn.insert {β : Type} {index : β → Int} {m : AssocMap String β}
    {done : List (ℕ × String)} (h : PlacedIn index m done) {i : ℕ} {referent : String} {x : β}
    (hnew : referent ∉ done.map Prod.snd) (hx : index x = i) :
    PlacedIn index (m.insert referent x) (done ++ [(i, referent)]) where
  found place hplace := by
    rcases mem_append.mp hplace with hplace | hplace
    · obtain ⟨y, hy, hindex⟩ := h.found place hplace
      have hne : place.2 ≠ referent := fun he => hnew (he ▸ mem_map_of_mem hplace)
      exact ⟨y, by rw [AList.lookup_insert_ne hne, hy], hindex⟩
    · rw [mem_singleton.mp hplace]
      exact ⟨x, AList.lookup_insert m, hx⟩
  only other y hy := by
    by_cases hother : other = referent
    · exact ⟨(i, referent), mem_append_right _ (mem_singleton_self _), hother.symm⟩
    · rw [AList.lookup_insert_ne hother] at hy
      obtain ⟨place, hplace, hsame⟩ := h.only other y hy
      exact ⟨place, mem_append_left _ hplace, hsame⟩

/-- The places of the attributes that are, or are not, revealed. -/
def attributePlaces (revealed : Bool) (attrs : List (ℕ × RequestedAttributeInfo)) :
    List (ℕ × String) :=
  (attrs.filter (fun place => place.2.revealed = revealed)).map
    (fun place => (place.1, place.2.attrReferent))

def predicatePlaces (predicates : List (ℕ × RequestedPredicateInfo)) : List (ℕ × String) :=
  predicates.map (fun place => (place.1, place.2.predicateReferent))

/-- The proof reports the referents placed so far. -/
structure Placed (selfAttested : AssocMap String String)
    (attrs : List (ℕ × RequestedAttributeInfo)) (predicates : List (ℕ × RequestedPredicateInfo))
    (requestedProof : RequestedProof) : Prop where
  revealed : PlacedIn RevealedAttributeInfo.subProofIndex requestedProof.revealedAttrs
    (attributePlaces true attrs)
  unrevealed : PlacedIn SubProofReferent.subProofIndex requestedProof.unrevealedAttrs
    (attributePlaces false attrs)
  predicates : PlacedIn SubProofReferent.subProofIndex requestedProof.predicates
    (predicatePlaces predicates)
  selfAttested : requestedProof.selfAttestedAttrs = selfAttested

/-- The referents of placed attributes. -/
def attrReferents (attrs : List (ℕ × RequestedAttributeInfo)) : List String :=
  attrs.map (fun place => place.2.attrReferent)

theorem attributePlaces_append (revealed : Bool) (attrs more : List (ℕ × RequestedAttributeInfo)) :
    attributePlaces revealed (attrs ++ more) =
      attributePlaces revealed attrs ++ attributePlaces revealed more := by
  rw [attributePlaces, filter_append, map_append]
  rfl

theorem attributePlaces_singleton (i : ℕ) (info : RequestedAttributeInfo) (revealed : Bool) :
    attributePlaces revealed [(i, info)] =
      if info.revealed = revealed then [(i, info.attrReferent)] else [] := by
  by_cases h : info.revealed = revealed
  · rw [if_pos h, attributePlaces, filter_singleton]
    simp [h]
  · rw [if_neg h, attributePlaces, filter_singleton]
    simp [h]

theorem predicatePlaces_append_map (predicates : List (ℕ × RequestedPredicateInfo)) (i : ℕ)
    (infos : List RequestedPredicateInfo) :
    (predicatePlaces (predicates ++ infos.map (fun info => (i, info)))).map Prod.snd =
      (predicatePlaces predicates).map Prod.snd ++
        infos.map RequestedPredicateInfo.predicateReferent := by
  rw [predicatePlaces, map_append, map_append]
  congr 1
  rw [map_map, map_map]
  rfl

theorem notMem_attributePlaces {attrs : List (ℕ × RequestedAttributeInfo)} {referent : String}
    (h : referent ∉ attrReferents attrs) (revealed : Bool) :
    referent ∉ (attributePlaces revealed attrs).map Prod.snd := by
  intro hmem
  rw [attributePlaces, map_map] at hmem
  obtain ⟨place, hplace, rfl⟩ := mem_map.mp hmem
  exact h (mem_map_of_mem (mem_filter.mp hplace).1)

section

variable {P : ProverTypes} {credential : SignedCredential P} {i : ℕ}
  {selfAttested : AssocMap String String} {attrs : List (ℕ × RequestedAttributeInfo)}
  {predicates : List (ℕ × RequestedPredicateInfo)} {requestedProof next : RequestedProof}

theorem Placed.attr (h : Placed selfAttested attrs predicates requestedProof)
    {info : RequestedAttributeInfo} (hnew : info.attrReferent ∉ attrReferents attrs)
    (hstep : placeAttribute toLowercase order proofReq credential i requestedProof info =
      .ok next) : Placed selfAttested (attrs ++ [(i, info)]) predicates next := by
  rw [placeAttribute] at hstep
  by_cases hrevealed : info.revealed = true
  · rw [if_pos hrevealed] at hstep
    obtain ⟨attr, -, hstep⟩ := bind_eq_ok_iff.mp hstep
    obtain ⟨values, -, hstep⟩ := bind_eq_ok_iff.mp hstep
    cases hstep
    have hplaced := h.revealed.insert (notMem_attributePlaces hnew true)
      (rfl : RevealedAttributeInfo.subProofIndex ⟨i, values.raw, values.encoded⟩ = i)
    refine ⟨?_, ?_, h.predicates, h.selfAttested⟩
    · rw [attributePlaces_append, attributePlaces_singleton, if_pos hrevealed]
      exact hplaced
    · rw [attributePlaces_append, attributePlaces_singleton,
        if_neg (by rw [hrevealed]; decide), append_nil]
      exact h.unrevealed
  · rw [if_neg hrevealed] at hstep
    cases hstep
    have hplaced := h.unrevealed.insert (notMem_attributePlaces hnew false)
      (rfl : SubProofReferent.subProofIndex ⟨i⟩ = i)
    refine ⟨?_, ?_, h.predicates, h.selfAttested⟩
    · rw [attributePlaces_append, attributePlaces_singleton, if_neg hrevealed, append_nil]
      exact h.revealed
    · rw [attributePlaces_append, attributePlaces_singleton,
        if_pos (Bool.not_eq_true _ ▸ hrevealed)]
      exact hplaced

theorem Placed.attributes (h : Placed selfAttested attrs predicates requestedProof)
    {infos : List RequestedAttributeInfo}
    (hnew : (attrReferents attrs ++ infos.map RequestedAttributeInfo.attrReferent).Nodup)
    (hrun : infos.foldlM (placeAttribute toLowercase order proofReq credential i) requestedProof =
      .ok next) :
    Placed selfAttested (attrs ++ infos.map (fun info => (i, info))) predicates next := by
  induction infos generalizing attrs requestedProof with
  | nil =>
    cases hrun
    rwa [map_nil, append_nil]
  | cons info infos ih =>
    rw [foldlM_cons] at hrun
    obtain ⟨rest, hstep, hrun⟩ := bind_eq_ok_iff.mp hrun
    rw [map_cons, nodup_append] at hnew
    have hfresh : info.attrReferent ∉ attrReferents attrs :=
      fun hmem => hnew.2.2 _ hmem _ mem_cons_self rfl
    have hplaced := ih (h.attr hfresh hstep) (by
      rw [attrReferents, map_append, append_assoc]
      exact nodup_append.mpr hnew) hrun
    rwa [append_assoc] at hplaced

theorem Placed.predicate (h : Placed selfAttested attrs predicates requestedProof)
    {info : RequestedPredicateInfo}
    (hnew : info.predicateReferent ∉ (predicatePlaces predicates).map Prod.snd) :
    Placed selfAttested attrs (predicates ++ [(i, info)])
      (placePredicate i requestedProof info) := by
  refine ⟨h.revealed, h.unrevealed, ?_, h.selfAttested⟩
  rw [predicatePlaces, map_append]
  exact h.predicates.insert hnew (rfl : SubProofReferent.subProofIndex ⟨i⟩ = i)

theorem Placed.predicates_foldl (h : Placed selfAttested attrs predicates requestedProof)
    {infos : List RequestedPredicateInfo}
    (hnew : ((predicatePlaces predicates).map Prod.snd ++
      infos.map RequestedPredicateInfo.predicateReferent).Nodup) :
    Placed selfAttested attrs (predicates ++ infos.map (fun info => (i, info)))
      (infos.foldl (placePredicate i) requestedProof) := by
  induction infos generalizing predicates requestedProof with
  | nil => rwa [map_nil, append_nil]
  | cons info infos ih =>
    rw [map_cons, nodup_append] at hnew
    have hfresh : info.predicateReferent ∉ (predicatePlaces predicates).map Prod.snd :=
      fun hmem => hnew.2.2 _ hmem _ mem_cons_self rfl
    have hnext : Placed selfAttested attrs (predicates ++ [(i, info)])
        (placePredicate i requestedProof info) := h.predicate hfresh
    have hplaced := ih hnext (by
      rw [predicatePlaces, map_append, map_append, append_assoc]
      exact nodup_append.mpr hnew)
    rwa [append_assoc] at hplaced

/-- What the groups, the first with the given index, hold of one kind. -/
def indexedFrom {α : Type} (π : ProvedGroup → List α) : ℕ → List ProvedGroup → List (ℕ × α)
  | _, [] => []
  | s, group :: groups => (π group).map (fun info => (s, info)) ++ indexedFrom π (s + 1) groups

theorem mem_indexedFrom {α : Type} {π : ProvedGroup → List α} {groups : List ProvedGroup}
    {s j : ℕ} {a : α} : (j, a) ∈ indexedFrom π s groups ↔
      ∃ k group, groups[k]? = some group ∧ j = s + k ∧ a ∈ π group := by
  induction groups generalizing s with
  | nil =>
    constructor
    · exact fun h => absurd h not_mem_nil
    · rintro ⟨k, group, hgroup, -⟩
      cases hgroup
  | cons group groups ih =>
    rw [indexedFrom, mem_append, mem_map, ih]
    constructor
    · rintro (⟨info, hinfo, heq⟩ | ⟨k, other, hother, hj, ha⟩)
      · cases heq
        exact ⟨0, group, rfl, rfl, hinfo⟩
      · exact ⟨k + 1, other, hother, by omega, ha⟩
    · rintro ⟨k, other, hother, hj, ha⟩
      cases k with
      | zero =>
        cases hother
        exact .inl ⟨a, ha, by rw [hj, Nat.add_zero]⟩
      | succ k => exact .inr ⟨k, other, hother, by omega, ha⟩

theorem Placed.group (h : Placed selfAttested attrs predicates requestedProof)
    {group : ProvedGroup}
    (hattrs : (attrReferents attrs ++ group.1.map RequestedAttributeInfo.attrReferent).Nodup)
    (hpredicates : ((predicatePlaces predicates).map Prod.snd ++
      group.2.map RequestedPredicateInfo.predicateReferent).Nodup)
    (hstep : updateRequestedProof toLowercase order proofReq credential i group requestedProof =
      .ok next) :
    Placed selfAttested (attrs ++ group.1.map (fun info => (i, info)))
      (predicates ++ group.2.map (fun info => (i, info))) next := by
  obtain ⟨placed, hplaced, hstep⟩ := bind_eq_ok_iff.mp hstep
  cases hstep
  exact (h.attributes hattrs hplaced).predicates_foldl hpredicates

end

section

variable {maps : @ProverMaps cl prover.toProverTypes} {masterSecret : prover.MasterSecret}

/-- The group was proved with the credential chosen for it, and the credential identified. -/
def ProvedWith (toLowercase : String → String) (maps : @ProverMaps cl prover.toProverTypes)
    (group : ProvingCredentialKey × ProvedGroup)
    (proved : ProvedEntry cl.toClTypes prover.toProverTypes × Identifier) : Prop :=
  ∃ credential, maps.credentials.lookup group.1.credId = some credential ∧
    proved.1.credentialSignature = credential.signature ∧
    proved.1.subProofRequest = proverSubProofRequest toLowercase group.2 ∧
    proved.2 = identifierOf group.1 credential.toCredential

theorem proveCredential_step {state next : ProvingState prover}
    {group : ProvingCredentialKey × ProvedGroup}
    (h : proveCredential toLowercase order overflowChecks maps masterSecret proofReq state group =
      .ok next) :
    ∃ proved, ∃ credential : SignedCredential prover.toProverTypes,
      ProvedWith toLowercase maps group proved ∧
      next.entries = state.entries ++ [proved.1] ∧
      next.identifiers = state.identifiers ++ [proved.2] ∧
      updateRequestedProof toLowercase order proofReq credential state.subProofIndex group.2
        state.requestedProof = .ok next.requestedProof ∧
      nextIndex overflowChecks state.subProofIndex = .ok next.subProofIndex := by
  obtain ⟨credential, hcredential, h⟩ := bind_eq_ok_iff.mp h
  obtain ⟨schema, -, h⟩ := bind_eq_ok_iff.mp h
  obtain ⟨credDef, -, h⟩ := bind_eq_ok_iff.mp h
  obtain ⟨revState, -, h⟩ := bind_eq_ok_iff.mp h
  obtain ⟨credentialPubKey, -, h⟩ := bind_eq_ok_iff.mp h
  obtain ⟨credentialValues, -, h⟩ := bind_eq_ok_iff.mp h
  obtain ⟨-, -, h⟩ := bind_eq_ok_iff.mp h
  obtain ⟨requestedProof, hplaced, h⟩ := bind_eq_ok_iff.mp h
  obtain ⟨subProofIndex, hindex, h⟩ := bind_eq_ok_iff.mp h
  cases h
  exact ⟨(_, _), credential,
    ⟨credential, ofOption_eq_ok.mp hcredential, rfl, rfl, rfl⟩, rfl, rfl, hplaced, hindex⟩

theorem nextIndex_eq {s : ℕ} {next : Int} (h : nextIndex overflowChecks s = .ok next)
    (hsmall : overflowChecks = true ∨ s + 1 < 2 ^ 31) : next = (s + 1 : ℕ) ∧ s + 1 < 2 ^ 31 := by
  rw [nextIndex] at h
  by_cases hs : (s : Int) + 1 < 2 ^ 31
  · rw [if_pos hs] at h
    cases h
    exact ⟨rfl, by omega⟩
  · rw [if_neg hs] at h
    rcases hsmall with hsmall | hsmall
    · rw [if_pos hsmall] at h
      cases h
    · omega

/-- The prover's loop from the group with index `s` on. -/
theorem proveCredential_loop {groups : List (ProvingCredentialKey × ProvedGroup)} {s : ℕ}
    {selfAttested : AssocMap String String} {attrs : List (ℕ × RequestedAttributeInfo)}
    {predicates : List (ℕ × RequestedPredicateInfo)} {state final : ProvingState prover}
    (hplaced : Placed selfAttested attrs predicates state.requestedProof)
    (hindex : groups ≠ [] → state.subProofIndex = s) (hs : s ≤ 2 ^ 31)
    (hcount : overflowChecks = true ∨ s + groups.length ≤ 2 ^ 31)
    (hattrs : (attrReferents attrs ++ (groups.flatMap (fun group => group.2.1)).map
      RequestedAttributeInfo.attrReferent).Nodup)
    (hpredicates : ((predicatePlaces predicates).map Prod.snd ++
      (groups.flatMap (fun group => group.2.2)).map
        RequestedPredicateInfo.predicateReferent).Nodup)
    (hrun : groups.foldlM
      (proveCredential toLowercase order overflowChecks maps masterSecret proofReq) state =
        .ok final) :
    s + groups.length ≤ 2 ^ 31 ∧
      Placed selfAttested (attrs ++ indexedFrom Prod.fst s (groups.map Prod.snd))
        (predicates ++ indexedFrom Prod.snd s (groups.map Prod.snd)) final.requestedProof ∧
      ∃ proved, List.Forall₂ (ProvedWith toLowercase maps) groups proved ∧
        final.entries = state.entries ++ proved.map Prod.fst ∧
        final.identifiers = state.identifiers ++ proved.map Prod.snd := by
  induction groups generalizing s attrs predicates state with
  | nil =>
    cases hrun
    refine ⟨hs, ?_, [], List.Forall₂.nil, (append_nil _).symm, (append_nil _).symm⟩
    rw [map_nil, indexedFrom, indexedFrom, append_nil, append_nil]
    exact hplaced
  | cons group groups ih =>
    rw [foldlM_cons] at hrun
    obtain ⟨next, hstep, hrun⟩ := bind_eq_ok_iff.mp hrun
    obtain ⟨proved, credential, hproved, hentries, hidentifiers, hupdate, hnext⟩ :=
      proveCredential_step hstep
    rw [hindex (cons_ne_nil _ _)] at hupdate hnext
    rw [length_cons] at hcount
    rw [flatMap_cons, map_append, ← append_assoc] at hattrs hpredicates
    have hgroup := hplaced.group (nodup_append.mp hattrs).1
      (nodup_append.mp hpredicates).1
      hupdate
    have hs' : s + 1 ≤ 2 ^ 31 := by
      rcases hcount with hchecks | hcount
      · exact (nextIndex_eq hnext (.inl hchecks)).2.le
      · omega
    have hindex' : groups ≠ [] → next.subProofIndex = (s + 1 : ℕ) := by
      intro hmore
      have hlength := length_pos_of_ne_nil hmore
      exact (nextIndex_eq hnext (hcount.imp_right (by omega))).1
    have hattrs' : (attrReferents (attrs ++ group.2.1.map (fun info => (s, info))) ++
        (groups.flatMap (fun group => group.2.1)).map
          RequestedAttributeInfo.attrReferent).Nodup := by
      rwa [attrReferents, map_append, map_map]
    have hpredicates' : ((predicatePlaces
        (predicates ++ group.2.2.map (fun info => (s, info)))).map Prod.snd ++
        (groups.flatMap (fun group => group.2.2)).map
          RequestedPredicateInfo.predicateReferent).Nodup := by
      rwa [predicatePlaces_append_map]
    obtain ⟨hbound, hfinal, more, hmore, hentries', hidentifiers'⟩ :=
      ih hgroup hindex' hs' (hcount.imp_right (by omega)) hattrs' hpredicates' hrun
    refine ⟨by rw [length_cons]; omega, ?_, proved :: more, List.Forall₂.cons hproved hmore,
      ?_, ?_⟩
    · rw [map_cons, indexedFrom, indexedFrom, ← append_assoc, ← append_assoc]
      exact hfinal
    · rw [hentries', hentries, map_cons, append_assoc]
      rfl
    · rw [hidentifiers', hidentifiers, map_cons, append_assoc]
      rfl

end

end IndySdk.Anoncreds
