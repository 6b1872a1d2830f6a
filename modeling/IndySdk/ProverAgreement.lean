import IndySdk.ProverGroups
import IndySdk.VerifierCoverage

/-!
# The prover and the verifier agree

The prover proves the group at an index; the verifier collects the referents that the proof claims
for that index. Whatever the order of the groups, both come to the same sub-proof request, and each
referent is reported with the index of the credential chosen for it.

A referent is reported once for each map of the selection that names it. Nothing keeps the maps
from naming one referent twice.
-/

open AssocMap Option AList

namespace List

variable {α β : Type*} {r : α → β → Prop}

theorem Forall₂.exists_getElem? {as : List α} {bs : List β} (h : Forall₂ r as bs) {i : ℕ} {a : α}
    (ha : as[i]? = some a) : ∃ b, bs[i]? = some b ∧ r a b := by
  induction h generalizing i with
  | nil => cases ha
  | cons hab _ ih =>
    cases i with
    | zero =>
      cases ha
      exact ⟨_, rfl, hab⟩
    | succ i => exact ih ha

end List

namespace IndySdk.Anoncreds

variable {cl : ClCrypto} {prover : ClProver cl} {toLowercase : String → String}
  {order : IterationOrder} {overflowChecks : Bool} {proofReq : ProofRequest cl}
  {requested : RequestedCredentials} {maps : @ProverMaps cl prover.toProverTypes}
  {masterSecret : prover.MasterSecret}

/-- The verifier rebuilds, for each identifier, what the prover used. -/
def SameRequests (toLowercase : String → String)
    (entries : List (ProvedEntry cl.toClTypes prover.toProverTypes)) (proofReq : ProofRequest cl)
    (requestedProof : RequestedProof) : Prop :=
  ∀ i entry, entries[i]? = some entry →
    entry.subProofRequest = buildSubProofRequest toLowercase
      (getRevealedAttributesForCredential i requestedProof proofReq)
      (getPredicatesForCredential i requestedProof proofReq)

/-- The index is that of the sub-proof made with the chosen credential, and of its identifier. -/
def PointsTo (maps : @ProverMaps cl prover.toProverTypes)
    (entries : List (ProvedEntry cl.toClTypes prover.toProverTypes))
    (identifiers : List Identifier) (index : Int) (key : ProvingCredentialKey) : Prop :=
  ∃ i : ℕ, ∃ entry credential, index = i ∧ maps.credentials.lookup key.credId = some credential ∧
    entries[i]? = some entry ∧ entry.credentialSignature = credential.signature ∧
    identifiers[i]? = some (identifierOf key credential.toCredential)

/-- A part of the proof has the referents chosen for it, each with the index of its credential. -/
structure PartReported {β γ : Type} (points : Int → ProvingCredentialKey → Prop)
    (part : AssocMap String β) (index : β → Int) (chosen : AssocMap String γ)
    (belongs : γ → Prop) (key : γ → ProvingCredentialKey) : Prop where
  mem_iff : ∀ referent,
    referent ∈ part ↔ ∃ choice, chosen.lookup referent = some choice ∧ belongs choice
  points : ∀ referent x choice, part.lookup referent = some x →
    chosen.lookup referent = some choice → points (index x) (key choice)

structure Reported (points : Int → ProvingCredentialKey → Prop) (requested : RequestedCredentials)
    (requestedProof : RequestedProof) : Prop where
  revealed : PartReported points requestedProof.revealedAttrs RevealedAttributeInfo.subProofIndex
    requested.requestedAttributes (fun choice => choice.revealed = true) RequestedAttribute.key
  unrevealed : PartReported points requestedProof.unrevealedAttrs SubProofReferent.subProofIndex
    requested.requestedAttributes (fun choice => choice.revealed = false) RequestedAttribute.key
  predicates : PartReported points requestedProof.predicates SubProofReferent.subProofIndex
    requested.requestedPredicates (fun _ => True) id
  selfAttested : requestedProof.selfAttestedAttrs = requested.selfAttestedAttributes

/-- How many parts of the proof have the referent. -/
def RequestedProof.timesReported (requestedProof : RequestedProof) (referent : String) : ℕ :=
  [requestedProof.revealedAttrs.keySet, requestedProof.unrevealedAttrs.keySet,
    requestedProof.selfAttestedAttrs.keySet, requestedProof.predicates.keySet].countP
      (fun part => referent ∈ part)

/-- How many maps of the selection name the referent. -/
def RequestedCredentials.timesNamed (requested : RequestedCredentials) (referent : String) : ℕ :=
  [requested.selfAttestedAttributes.keySet, requested.requestedAttributes.keySet,
    requested.requestedPredicates.keySet].countP (fun named => referent ∈ named)

theorem PartReported.mem_keySet {β γ : Type} {points : Int → ProvingCredentialKey → Prop}
    {part : AssocMap String β} {index : β → Int} {chosen : AssocMap String γ}
    {belongs : γ → Prop} {key : γ → ProvingCredentialKey}
    (h : PartReported points part index chosen belongs key) {referent : String} :
    referent ∈ part.keySet ↔ ∃ choice, chosen.lookup referent = some choice ∧ belongs choice := by
  rw [← h.mem_iff, AssocMap.mem_keySet, ← lookup_isSome, isSome_iff_exists]

theorem Reported.attributes {points : Int → ProvingCredentialKey → Prop}
    {requestedProof : RequestedProof} (h : Reported points requested requestedProof)
    (referent : String) :
    [requestedProof.revealedAttrs.keySet, requestedProof.unrevealedAttrs.keySet].countP
        (fun part => referent ∈ part) =
      [requested.requestedAttributes.keySet].countP (fun named => referent ∈ named) := by
  have hrevealed := @PartReported.mem_keySet _ _ _ _ _ _ _ _ h.revealed referent
  have hunrevealed := @PartReported.mem_keySet _ _ _ _ _ _ _ _ h.unrevealed referent
  have hnamed := @AssocMap.mem_keySet _ _ _ requested.requestedAttributes referent
  cases hchoice : requested.requestedAttributes.lookup referent with
  | none =>
    have hout : referent ∉ requested.requestedAttributes.keySet := by
      rw [hnamed, hchoice]
      rintro ⟨_, h⟩
      cases h
    simp [hrevealed, hunrevealed, hchoice, hout]
  | some choice =>
    have hin : referent ∈ requested.requestedAttributes.keySet := hnamed.mpr ⟨choice, hchoice⟩
    cases hflag : choice.revealed with
    | false => simp [hrevealed, hunrevealed, hchoice, hflag, hin]
    | true => simp [hrevealed, hunrevealed, hchoice, hflag, hin]

theorem Reported.timesReported_eq {points : Int → ProvingCredentialKey → Prop}
    {requestedProof : RequestedProof} (h : Reported points requested requestedProof)
    (referent : String) :
    requestedProof.timesReported referent = requested.timesNamed referent := by
  have hattributes := h.attributes referent
  have hpredicates : referent ∈ requestedProof.predicates.keySet ↔
      referent ∈ requested.requestedPredicates.keySet := by
    rw [h.predicates.mem_keySet, AssocMap.mem_keySet]
    simp only [and_true]
  simp only [List.countP_cons, List.countP_nil] at hattributes
  simp only [RequestedProof.timesReported, RequestedCredentials.timesNamed, List.countP_cons,
    List.countP_nil, hpredicates, h.selfAttested]
  omega

variable {i : ℕ} {referent : String}

theorem asUsize_natCast (h : i < 2 ^ 31) : asUsize i = i := by
  rw [asUsize]
  omega

theorem Grouped.exists_attr {attrs : List RequestedAttributeInfo}
    {predicates : List RequestedPredicateInfo} {groups : AssocMap ProvingCredentialKey ProvedGroup}
    (h : Grouped proofReq requested attrs predicates groups)
    (hnames : attrs.map RequestedAttributeInfo.attrReferent = requested.requestedAttributes.keys)
    {choice : RequestedAttribute}
    (hchoice : requested.requestedAttributes.lookup referent = some choice) :
    ∃ group info, groups.lookup choice.key = some group ∧ info ∈ group.1 ∧
      info.attrReferent = referent ∧ info.revealed = choice.revealed := by
  have hmem : referent ∈ attrs.map RequestedAttributeInfo.attrReferent := by
    rw [hnames]
    exact lookup_isSome.mp (by rw [hchoice]; rfl)
  obtain ⟨info, hinfo, rfl⟩ := List.mem_map.mp hmem
  obtain ⟨group, hgroup, hinfo⟩ := List.mem_flatMap.mp (h.heldAttrs.mem_iff.mpr hinfo)
  obtain ⟨key, hkey⟩ := mem_values.mp hgroup
  obtain ⟨-, choice', hchoice', rfl, hrevealed⟩ := h.chosenAttr key group hkey info hinfo
  cases hchoice.symm.trans hchoice'
  exact ⟨group, info, hkey, hinfo, rfl, hrevealed.symm⟩

theorem Grouped.exists_predicate {attrs : List RequestedAttributeInfo}
    {predicates : List RequestedPredicateInfo} {groups : AssocMap ProvingCredentialKey ProvedGroup}
    (h : Grouped proofReq requested attrs predicates groups)
    (hnames : predicates.map RequestedPredicateInfo.predicateReferent =
      requested.requestedPredicates.keys) {key : ProvingCredentialKey}
    (hkey : requested.requestedPredicates.lookup referent = some key) :
    ∃ group info, groups.lookup key = some group ∧ info ∈ group.2 ∧
      info.predicateReferent = referent := by
  have hmem : referent ∈ predicates.map RequestedPredicateInfo.predicateReferent := by
    rw [hnames]
    exact lookup_isSome.mp (by rw [hkey]; rfl)
  obtain ⟨info, hinfo, rfl⟩ := List.mem_map.mp hmem
  obtain ⟨group, hgroup, hinfo⟩ := List.mem_flatMap.mp (h.heldPredicates.mem_iff.mpr hinfo)
  obtain ⟨key', hkey'⟩ := mem_values.mp hgroup
  cases hkey.symm.trans (h.chosenPredicate key' group hkey' info hinfo).2
  exact ⟨group, info, hkey', hinfo, rfl⟩

theorem mem_attributePlaces {revealed : Bool} {groups : List ProvedGroup} :
    (i, referent) ∈ attributePlaces revealed (indexedFrom Prod.fst 0 groups) ↔
      ∃ group info, groups[i]? = some group ∧ info ∈ group.1 ∧ info.revealed = revealed ∧
        info.attrReferent = referent := by
  rw [attributePlaces, List.mem_map]
  constructor
  · rintro ⟨⟨j, info⟩, hplace, heq⟩
    cases heq
    obtain ⟨hplace, hrevealed⟩ := List.mem_filter.mp hplace
    obtain ⟨k, group, hgroup, hk, hinfo⟩ := mem_indexedFrom.mp hplace
    rw [Nat.zero_add] at hk
    exact ⟨group, info, hk ▸ hgroup, hinfo, of_decide_eq_true hrevealed, rfl⟩
  · rintro ⟨group, info, hgroup, hinfo, hrevealed, rfl⟩
    refine ⟨(i, info), List.mem_filter.mpr ⟨mem_indexedFrom.mpr ?_, decide_eq_true hrevealed⟩, rfl⟩
    exact ⟨i, group, hgroup, (Nat.zero_add i).symm, hinfo⟩

theorem mem_predicatePlaces {groups : List ProvedGroup} :
    (i, referent) ∈ predicatePlaces (indexedFrom Prod.snd 0 groups) ↔
      ∃ group info, groups[i]? = some group ∧ info ∈ group.2 ∧
        info.predicateReferent = referent := by
  rw [predicatePlaces, List.mem_map]
  constructor
  · rintro ⟨⟨j, info⟩, hplace, heq⟩
    cases heq
    obtain ⟨k, group, hgroup, hk, hinfo⟩ := mem_indexedFrom.mp hplace
    rw [Nat.zero_add] at hk
    exact ⟨group, info, hk ▸ hgroup, hinfo, rfl⟩
  · rintro ⟨group, info, hgroup, hinfo, rfl⟩
    exact ⟨(i, info), mem_indexedFrom.mpr ⟨i, group, hgroup, (Nat.zero_add i).symm, hinfo⟩, rfl⟩

theorem PlacedIn.mem_requestedForCredential {β γ : Type} {index : β → Int}
    {part : AssocMap String β} {places : List (ℕ × String)} (h : PlacedIn index part places)
    (hsmall : ∀ place ∈ places, place.1 < 2 ^ 31) {wanted : AssocMap String γ} {c : γ} :
    c ∈ requestedForCredential i index part wanted ↔
      ∃ referent, (i, referent) ∈ places ∧ wanted.lookup referent = some c := by
  rw [Anoncreds.mem_requestedForCredential]
  constructor
  · rintro ⟨referent, x, hx, hc, hi⟩
    obtain ⟨place, hplace, rfl⟩ := h.only referent x hx
    obtain ⟨y, hy, hindex⟩ := h.found place hplace
    cases hx.symm.trans hy
    rw [hindex, asUsize_natCast (hsmall place hplace)] at hi
    exact ⟨place.2, hi ▸ hplace, hc⟩
  · rintro ⟨referent, hplace, hc⟩
    obtain ⟨x, hx, hindex⟩ := h.found (i, referent) hplace
    exact ⟨referent, x, hx, hc, by rw [hindex, asUsize_natCast (hsmall _ hplace)]⟩

/-- What the loop comes to over the groups in the order in which they were proved. -/
structure ProvedRun (toLowercase : String → String) (maps : @ProverMaps cl prover.toProverTypes)
    (proofReq : ProofRequest cl) (requested : RequestedCredentials)
    (groups : List (ProvingCredentialKey × ProvedGroup)) (state : ProvingState prover) : Prop where
  chosenAttr : ∀ (i : ℕ) group, groups[i]? = some group →
    ∀ info ∈ group.2.1, ChosenAttribute proofReq requested group.1 info
  chosenPredicate : ∀ (i : ℕ) group, groups[i]? = some group →
    ∀ info ∈ group.2.2, ChosenPredicate proofReq requested group.1 info
  hasAttr : ∀ referent choice, requested.requestedAttributes.lookup referent = some choice →
    ∃ (i : ℕ) (group : ProvedGroup) (info : RequestedAttributeInfo),
      groups[i]? = some (choice.key, group) ∧ info ∈ group.1 ∧
        info.attrReferent = referent ∧ info.revealed = choice.revealed
  hasPredicate : ∀ referent key, requested.requestedPredicates.lookup referent = some key →
    ∃ (i : ℕ) (group : ProvedGroup) (info : RequestedPredicateInfo),
      groups[i]? = some (key, group) ∧ info ∈ group.2 ∧
        info.predicateReferent = referent
  length_le : groups.length ≤ 2 ^ 31
  placed : Placed requested.selfAttestedAttributes (indexedFrom Prod.fst 0 (groups.map Prod.snd))
    (indexedFrom Prod.snd 0 (groups.map Prod.snd)) state.requestedProof
  proved : ∃ proved, List.Forall₂ (ProvedWith toLowercase maps) groups proved ∧
    state.entries = proved.map Prod.fst ∧ state.identifiers = proved.map Prod.snd

theorem proveCredentials_run {state : ProvingState prover}
    (hcount : overflowChecks = true ∨ requested.requestedAttributes.keys.length +
      requested.requestedPredicates.keys.length ≤ 2 ^ 31)
    (h : proveCredentials toLowercase order overflowChecks maps masterSecret proofReq requested =
      .ok state) : ∃ groups, ProvedRun toLowercase maps proofReq requested groups state := by
  obtain ⟨groups, hgroups, hrun⟩ := Outcome.bind_eq_ok_iff.mp h
  obtain ⟨attrs, predicates, hattrs, hpredicates, hgrouped⟩ := prepare_grouped hgroups
  have hperm := order.perm groups.toPairs
  have hvalues : (groups.toPairs.map Prod.snd) = groups.values := by
    rw [values, toPairs, List.map_map]
    rfl
  have hfst : ((order.order groups.toPairs).flatMap (fun group => group.2.1)).Perm attrs := by
    refine (hperm.flatMap_right _).trans ?_
    have hheld := hgrouped.heldAttrs
    rwa [← hvalues, List.flatMap_map] at hheld
  have hsnd : ((order.order groups.toPairs).flatMap (fun group => group.2.2)).Perm predicates := by
    refine (hperm.flatMap_right _).trans ?_
    have hheld := hgrouped.heldPredicates
    rwa [← hvalues, List.flatMap_map] at hheld
  have hlookup : ∀ (i : ℕ) group, (order.order groups.toPairs)[i]? = some group →
      groups.lookup group.1 = some group.2 :=
    fun i group hgroup => mem_toPairs.mp (order.mem_order.mp (List.mem_of_getElem? hgroup))
  have hindex : ∀ key group, groups.lookup key = some group →
      ∃ i : ℕ, (order.order groups.toPairs)[i]? = some (key, group) :=
    fun key group hgroup =>
      List.mem_iff_getElem?.mp (order.mem_order.mpr (mem_toPairs.mpr hgroup))
  have hlength : (order.order groups.toPairs).length ≤ attrs.length + predicates.length := by
    have hle := hgrouped.length_le
    rwa [← hvalues, List.length_map, ← hperm.length_eq] at hle
  have hempty : Placed requested.selfAttestedAttributes [] []
      ⟨∅, requested.selfAttestedAttributes, ∅, ∅⟩ :=
    ⟨placedIn_empty _, placedIn_empty _, placedIn_empty _, rfl⟩
  have hattrNodup : (attrReferents [] ++ ((order.order groups.toPairs).flatMap
      (fun group => group.2.1)).map RequestedAttributeInfo.attrReferent).Nodup := by
    rw [attrReferents, List.map_nil, List.nil_append, (hfst.map _).nodup_iff, hattrs]
    exact keys_nodup _
  have hpredicateNodup : ((predicatePlaces []).map Prod.snd ++ ((order.order
      groups.toPairs).flatMap (fun group => group.2.2)).map
        RequestedPredicateInfo.predicateReferent).Nodup := by
    rw [predicatePlaces, List.map_nil, List.map_nil, List.nil_append, (hsnd.map _).nodup_iff,
      hpredicates]
    exact keys_nodup _
  rw [← hattrs, ← hpredicates, List.length_map, List.length_map] at hcount
  have hcount' : overflowChecks = true ∨ 0 + (order.order groups.toPairs).length ≤ 2 ^ 31 :=
    hcount.imp_right (fun hle => by omega)
  obtain ⟨hbound, hplaced, proved, hproved, hentries, hidentifiers⟩ :=
    proveCredential_loop hempty (fun _ => rfl) (Nat.zero_le _) hcount' hattrNodup hpredicateNodup
      hrun
  refine ⟨order.order groups.toPairs, ?_, ?_, ?_, ?_, by omega, hplaced, proved, hproved, hentries,
    hidentifiers⟩
  · exact fun i group hgroup => hgrouped.chosenAttr _ _ (hlookup i group hgroup)
  · exact fun i group hgroup => hgrouped.chosenPredicate _ _ (hlookup i group hgroup)
  · intro referent choice hchoice
    obtain ⟨group, info, hgroup, hinfo⟩ := hgrouped.exists_attr hattrs hchoice
    obtain ⟨i, hi⟩ := hindex _ _ hgroup
    exact ⟨i, group, info, hi, hinfo⟩
  · intro referent key hkey
    obtain ⟨group, info, hgroup, hinfo⟩ := hgrouped.exists_predicate hpredicates hkey
    obtain ⟨i, hi⟩ := hindex _ _ hgroup
    exact ⟨i, group, info, hi, hinfo⟩

section

variable {groups : List (ProvingCredentialKey × ProvedGroup)} {state : ProvingState prover} {i : ℕ}
  {group : ProvingCredentialKey × ProvedGroup}

theorem ProvedRun.pointsTo (h : ProvedRun toLowercase maps proofReq requested groups state)
    {key : ProvingCredentialKey} {group : ProvedGroup} (hgroup : groups[i]? = some (key, group)) :
    PointsTo maps state.entries state.identifiers i key := by
  obtain ⟨proved, hproved, hentries, hidentifiers⟩ := h.proved
  obtain ⟨p, hp, credential, hcredential, hsignature, -, hidentifier⟩ :=
    hproved.exists_getElem? hgroup
  refine ⟨i, p.1, credential, rfl, hcredential, ?_, hsignature, ?_⟩
  · rw [hentries, List.getElem?_map, hp]
    rfl
  · rw [hidentifiers, List.getElem?_map, hp, ← hidentifier]
    rfl

theorem PlacedIn.partReported {β γ : Type} {points : Int → ProvingCredentialKey → Prop}
    {index : β → Int} {part : AssocMap String β} {places : List (ℕ × String)}
    (h : PlacedIn index part places) {chosen : AssocMap String γ} {belongs : γ → Prop}
    {key : γ → ProvingCredentialKey}
    (hplace : ∀ place ∈ places,
      ∃ choice, chosen.lookup place.2 = some choice ∧ belongs choice)
    (hchosen : ∀ referent choice, chosen.lookup referent = some choice → belongs choice →
      ∃ i : ℕ, (i, referent) ∈ places ∧ points i (key choice)) :
    PartReported points part index chosen belongs key := by
  constructor
  · intro referent
    rw [← lookup_isSome, isSome_iff_exists]
    constructor
    · rintro ⟨x, hx⟩
      obtain ⟨place, hmem, rfl⟩ := h.only referent x hx
      exact hplace place hmem
    · rintro ⟨choice, hchoice, hbelongs⟩
      obtain ⟨i, hmem, -⟩ := hchosen referent choice hchoice hbelongs
      obtain ⟨x, hx, -⟩ := h.found _ hmem
      exact ⟨x, hx⟩
  · intro referent x choice hx hchoice
    obtain ⟨place, hmem, rfl⟩ := h.only referent x hx
    obtain ⟨choice', hchoice', hbelongs⟩ := hplace place hmem
    cases hchoice.symm.trans hchoice'
    obtain ⟨i, hmem, hpoints⟩ := hchosen place.2 choice hchoice hbelongs
    obtain ⟨y, hy, hindex⟩ := h.found _ hmem
    cases hx.symm.trans hy
    rwa [hindex]

theorem ProvedRun.attributePart (h : ProvedRun toLowercase maps proofReq requested groups state)
    {β : Type} {index : β → Int} {part : AssocMap String β} {revealed : Bool}
    (hpart : PlacedIn index part
      (attributePlaces revealed (indexedFrom Prod.fst 0 (groups.map Prod.snd)))) :
    PartReported (PointsTo maps state.entries state.identifiers) part index
      requested.requestedAttributes (fun choice => choice.revealed = revealed)
      RequestedAttribute.key := by
  apply hpart.partReported
  · rintro ⟨i, referent⟩ hplace
    obtain ⟨group, info, hgroup, hinfo, hrevealed, rfl⟩ := mem_attributePlaces.mp hplace
    rw [List.getElem?_map] at hgroup
    obtain ⟨pair, hpair, rfl⟩ := map_eq_some_iff.mp hgroup
    obtain ⟨-, choice, hchoice, -, hflag⟩ := h.chosenAttr i pair hpair info hinfo
    exact ⟨choice, hchoice, hflag.trans hrevealed⟩
  · intro referent choice hchoice hrevealed
    obtain ⟨i, group, info, hgroup, hinfo, hreferent, hflag⟩ := h.hasAttr referent choice hchoice
    refine ⟨i, mem_attributePlaces.mpr ⟨group, info, ?_, hinfo, hflag.trans hrevealed, hreferent⟩,
      h.pointsTo hgroup⟩
    rw [List.getElem?_map, hgroup]
    rfl

theorem ProvedRun.predicatePart (h : ProvedRun toLowercase maps proofReq requested groups state) :
    PartReported (PointsTo maps state.entries state.identifiers) state.requestedProof.predicates
      SubProofReferent.subProofIndex requested.requestedPredicates (fun _ => True) id := by
  apply h.placed.predicates.partReported
  · rintro ⟨i, referent⟩ hplace
    obtain ⟨group, info, hgroup, hinfo, rfl⟩ := mem_predicatePlaces.mp hplace
    rw [List.getElem?_map] at hgroup
    obtain ⟨pair, hpair, rfl⟩ := map_eq_some_iff.mp hgroup
    exact ⟨pair.1, (h.chosenPredicate i pair hpair info hinfo).2, trivial⟩
  · intro referent key hkey _
    obtain ⟨i, group, info, hgroup, hinfo, hreferent⟩ := h.hasPredicate referent key hkey
    refine ⟨i, mem_predicatePlaces.mpr ⟨group, info, ?_, hinfo, hreferent⟩, h.pointsTo hgroup⟩
    rw [List.getElem?_map, hgroup]
    rfl

theorem ProvedRun.reported (h : ProvedRun toLowercase maps proofReq requested groups state) :
    Reported (PointsTo maps state.entries state.identifiers) requested state.requestedProof :=
  ⟨h.attributePart h.placed.revealed, h.attributePart h.placed.unrevealed, h.predicatePart,
    h.placed.selfAttested⟩

theorem ProvedRun.mem_revealed (h : ProvedRun toLowercase maps proofReq requested groups state)
    (hgroup : groups[i]? = some group) {attr : AttributeInfo} :
    attr ∈ getRevealedAttributesForCredential i state.requestedProof proofReq ↔
      ∃ info ∈ group.2.1, info.revealed = true ∧ info.attrInfo = attr := by
  have hsmall : ∀ place ∈ attributePlaces true (indexedFrom Prod.fst 0 (groups.map Prod.snd)),
      place.1 < 2 ^ 31 := by
    rintro ⟨j, referent⟩ hplace
    obtain ⟨other, -, hother, -⟩ := mem_attributePlaces.mp hplace
    have hj := (List.getElem?_eq_some_iff.mp hother).1
    rw [List.length_map] at hj
    exact lt_of_lt_of_le hj h.length_le
  rw [getRevealedAttributesForCredential,
    h.placed.revealed.mem_requestedForCredential hsmall]
  constructor
  · rintro ⟨referent, hplace, hattr⟩
    obtain ⟨other, info, hother, hinfo, hrevealed, rfl⟩ := mem_attributePlaces.mp hplace
    rw [List.getElem?_map, hgroup] at hother
    cases hother
    have hchosen := (h.chosenAttr i group hgroup info hinfo).1
    cases hattr.symm.trans hchosen
    exact ⟨info, hinfo, hrevealed, rfl⟩
  · rintro ⟨info, hinfo, hrevealed, rfl⟩
    refine ⟨info.attrReferent, mem_attributePlaces.mpr ⟨group.2, info, ?_, hinfo, hrevealed, rfl⟩,
      (h.chosenAttr i group hgroup info hinfo).1⟩
    rw [List.getElem?_map, hgroup]
    rfl

theorem ProvedRun.mem_predicates (h : ProvedRun toLowercase maps proofReq requested groups state)
    (hgroup : groups[i]? = some group) {predicate : PredicateInfo} :
    predicate ∈ getPredicatesForCredential i state.requestedProof proofReq ↔
      ∃ info ∈ group.2.2, info.predicateInfo = predicate := by
  have hsmall : ∀ place ∈ predicatePlaces (indexedFrom Prod.snd 0 (groups.map Prod.snd)),
      place.1 < 2 ^ 31 := by
    rintro ⟨j, referent⟩ hplace
    obtain ⟨other, -, hother, -⟩ := mem_predicatePlaces.mp hplace
    have hj := (List.getElem?_eq_some_iff.mp hother).1
    rw [List.length_map] at hj
    exact lt_of_lt_of_le hj h.length_le
  rw [getPredicatesForCredential, h.placed.predicates.mem_requestedForCredential hsmall]
  constructor
  · rintro ⟨referent, hplace, hpredicate⟩
    obtain ⟨other, info, hother, hinfo, rfl⟩ := mem_predicatePlaces.mp hplace
    rw [List.getElem?_map, hgroup] at hother
    cases hother
    have hchosen := (h.chosenPredicate i group hgroup info hinfo).1
    cases hpredicate.symm.trans hchosen
    exact ⟨info, hinfo, rfl⟩
  · rintro ⟨info, hinfo, rfl⟩
    refine ⟨info.predicateReferent, mem_predicatePlaces.mpr ⟨group.2, info, ?_, hinfo, rfl⟩,
      (h.chosenPredicate i group hgroup info hinfo).1⟩
    rw [List.getElem?_map, hgroup]
    rfl

theorem ProvedRun.subProofRequest_eq
    (h : ProvedRun toLowercase maps proofReq requested groups state)
    (hgroup : groups[i]? = some group) :
    proverSubProofRequest toLowercase group.2 = buildSubProofRequest toLowercase
      (getRevealedAttributesForCredential i state.requestedProof proofReq)
      (getPredicatesForCredential i state.requestedProof proofReq) := by
  rw [proverSubProofRequest, buildSubProofRequest, SubProofRequest.mk.injEq]
  constructor
  · ext name
    simp only [List.mem_toFinset, List.mem_map, List.mem_filter, h.mem_revealed hgroup]
    constructor
    · rintro ⟨info, ⟨hinfo, hrevealed⟩, rfl⟩
      exact ⟨info.attrInfo, ⟨info, hinfo, hrevealed, rfl⟩, rfl⟩
    · rintro ⟨attr, ⟨info, hinfo, hrevealed, rfl⟩, rfl⟩
      exact ⟨info, ⟨hinfo, hrevealed⟩, rfl⟩
  · ext predicate
    simp only [List.mem_toFinset, List.mem_map, h.mem_predicates hgroup]
    constructor
    · rintro ⟨info, hinfo, rfl⟩
      exact ⟨info.predicateInfo, ⟨info, hinfo, rfl⟩, rfl⟩
    · rintro ⟨wanted, ⟨info, hinfo, rfl⟩, rfl⟩
      exact ⟨info, hinfo, rfl⟩

theorem ProvedRun.sameRequests (h : ProvedRun toLowercase maps proofReq requested groups state) :
    SameRequests toLowercase state.entries proofReq state.requestedProof := by
  intro i entry hentry
  obtain ⟨proved, hproved, hentries, -⟩ := h.proved
  rw [hentries, List.getElem?_map] at hentry
  obtain ⟨p, hp, rfl⟩ := map_eq_some_iff.mp hentry
  obtain ⟨group, hgroup, credential, -, -, hrequest, -⟩ :=
    hproved.flip.exists_getElem? hp
  rw [hrequest]
  exact h.subProofRequest_eq hgroup

theorem ProvedRun.length_eq (h : ProvedRun toLowercase maps proofReq requested groups state) :
    state.entries.length = state.identifiers.length := by
  obtain ⟨proved, -, hentries, hidentifiers⟩ := h.proved
  rw [hentries, hidentifiers, List.length_map, List.length_map]

end

/-- A proof that was created is built from the sub-proof requests that its verifier rebuilds, and
reports each referent with the credential chosen for it, once for each map that names it. -/
theorem createProof_agrees {proof : Proof cl}
    (hcount : overflowChecks = true ∨ requested.requestedAttributes.keys.length +
      requested.requestedPredicates.keys.length ≤ 2 ^ 31)
    (h : createProof toLowercase order overflowChecks maps masterSecret proofReq requested =
      .ok proof) :
    ∃ state, proveCredentials toLowercase order overflowChecks maps masterSecret
      proofReq requested =
        .ok state ∧
      prover.finalize state.entries proofReq.nonce = .ok proof.proof ∧
      state.entries.length = proof.identifiers.length ∧
      SameRequests toLowercase state.entries proofReq proof.requestedProof ∧
      Reported (PointsTo maps state.entries proof.identifiers) requested proof.requestedProof ∧
      ∀ referent, proof.requestedProof.timesReported referent = requested.timesNamed referent := by
  obtain ⟨state, hstate, h⟩ := Outcome.bind_eq_ok_iff.mp h
  obtain ⟨made, hmade, h⟩ := Outcome.bind_eq_ok_iff.mp h
  cases h
  obtain ⟨groups, hrun⟩ := proveCredentials_run hcount hstate
  exact ⟨state, hstate, hmade, hrun.length_eq, hrun.sameRequests, hrun.reported,
    fun referent => hrun.reported.timesReported_eq referent⟩

/-- A prover whose proofs list the values that were to be revealed. -/
def exampleProver : ClProver exampleCl where
  CredentialSignature := Unit
  CredentialValues := List (String × String)
  MasterSecret := Unit
  Witness := Unit
  buildCredentialValues := fun values _ => .ok values
  addSubProofRequest := fun _ => .ok ()
  finalize := fun entries _ => .ok (entries.map (fun entry =>
    ⟨entry.credentialValues.filter
      (fun value => value.1 ∈ entry.subProofRequest.revealedAttrs), []⟩))

def exampleProverMaps : @ProverMaps exampleCl exampleProver.toProverTypes where
  credentials := AList.insert "cred" {
    schemaId := "schema"
    credDefId := "credDef"
    revRegId := none
    values := AList.insert "name" ⟨"Alex", "1139481716457488690172217916278103335"⟩ ∅
    signatureIndex := none
    signature := () } ∅
  schemas := exampleMaps.schemas
  credDefs := exampleMaps.credDefs
  revStates := ∅

/-- A request for a name. -/
def nameRequest : ProofRequest exampleCl where
  nonce := ()
  name := "request"
  version := "1.0"
  requestedAttributes := AList.insert "attr1" { name := "name" } ∅
  requestedPredicates := ∅
  nonRevoked := none

/-- The name of a credential is selected, beside what is attested. -/
def nameSelection (selfAttestedAttributes : AssocMap String String) : RequestedCredentials where
  selfAttestedAttributes
  requestedAttributes := AList.insert "attr1" ⟨"cred", none, true⟩ ∅
  requestedPredicates := ∅

def nameProof (selfAttestedAttrs : AssocMap String String) : Proof exampleCl where
  proof := [⟨[("name", "1139481716457488690172217916278103335")], []⟩]
  requestedProof := {
    revealedAttrs := AList.insert "attr1" ⟨0, "Alex", "1139481716457488690172217916278103335"⟩ ∅
    selfAttestedAttrs
    unrevealedAttrs := ∅
    predicates := ∅ }
  identifiers := [⟨"schema", "credDef", none, none⟩]

theorem createProof_nameSelection (selfAttested : AssocMap String String) :
    createProof id IterationOrder.inserted false exampleProverMaps () nameRequest
      (nameSelection selfAttested) = .ok (nameProof selfAttested) := by
  rfl

/-- The proof of a name is built from what its verifier rebuilds. -/
theorem createProof_agrees_nameProof :
    ∃ state : ProvingState exampleProver,
      proveCredentials id IterationOrder.inserted false exampleProverMaps () nameRequest
        (nameSelection ∅) = .ok state ∧
      exampleProver.finalize state.entries () = .ok (nameProof ∅).proof ∧
      state.entries.length = (nameProof ∅).identifiers.length ∧
      SameRequests id state.entries nameRequest (nameProof ∅).requestedProof ∧
      Reported (PointsTo exampleProverMaps state.entries (nameProof ∅).identifiers)
        (nameSelection ∅) (nameProof ∅).requestedProof ∧
      ∀ referent, (nameProof ∅).requestedProof.timesReported referent =
        (nameSelection ∅).timesNamed referent :=
  createProof_agrees (.inr (by decide +kernel)) (createProof_nameSelection ∅)

/-- A name that is attested as well is reported twice, and the index of a group after the first
`2 ^ 31` is none that the verifier counts to. -/
theorem attested_name_reported_twice :
    createProof id IterationOrder.inserted false exampleProverMaps () nameRequest
        (nameSelection (AList.insert "attr1" "Sasha" ∅)) =
          .ok (nameProof (AList.insert "attr1" "Sasha" ∅)) ∧
      (nameProof (AList.insert "attr1" "Sasha" ∅)).requestedProof.timesReported "attr1" = 2 ∧
      nextIndex false (2 ^ 31 - 1) = .ok (-2 ^ 31) ∧ asUsize (-2 ^ 31) ≠ 2 ^ 31 := by
  exact ⟨createProof_nameSelection _, by decide +kernel, by decide, by decide⟩

end IndySdk.Anoncreds
