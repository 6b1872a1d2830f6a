import IndySdk.KeyRewriteClear
import Mathlib.Data.String.Basic

/-!
# Abbreviating invites

The recursion ends with a value for every JSON value. It is the value with all keys renamed at
once exactly where no key of an object stands in the way of another one. Abbreviated invites
are read back as they were.
-/

namespace IndySdk.Vcx.Invite

open List Json

mutual

/-- How deep objects lie in objects, arrays not being entered. -/
def height : Json → ℕ
  | .obj members => heightMembers members + 1
  | _ => 0

def heightMembers : List (String × Json) → ℕ
  | [] => 0
  | (_, j) :: members => max (height j) (heightMembers members)

end

theorem heightMembers_le_iff {members : List (String × Json)} {n : ℕ} :
    heightMembers members ≤ n ↔ ∀ m ∈ members, height m.2 ≤ n := by
  induction members with
  | nil => exact iff_of_true (Nat.zero_le n) (fun _ h => absurd h not_mem_nil)
  | cons m members ih =>
      rw [heightMembers, Nat.max_le, ih, forall_mem_cons]

/-- Every object has its members in the order of their names, as the maps of the library have. -/
inductive Ordered : Json → Prop
  | obj {members : List (String × Json)} (sorted : (members.map Prod.fst).Pairwise (· < ·))
      (values : ∀ m ∈ members, Ordered m.2) : Ordered (.obj members)
  | arr {elements : List Json} (values : ∀ j ∈ elements, Ordered j) : Ordered (.arr elements)
  | leaf {j : Json} (harr : j.asArray = none) (hobj : j.asObject = none) : Ordered j

section

variable {T : Type} [KeyMatch T] {remap : List (T × String)}

variable (remap) in
/-- A function of values, as it applies to the member of a key in an object. -/
def inObject (context : List String) (R : List String → Json → Json) (k : String) (j : Json) :
    Json := R (context ++ [newKey remap context k]) j

theorem rewriteMember_eq {rewriteValue : List String → Json → VcxResult Json}
    {R : List String → Json → Json} {context : List String} {map : List (String × Json)}
    {k : String} (hk : k ∈ map.map Prod.fst)
    (hR : ∀ m ∈ map, ∀ context, rewriteValue context m.2 = .ok (R context m.2)) :
    rewriteMember remap rewriteValue context map k =
      .ok (placeMember (newKey remap context) (inObject remap context R) k map) := by
  obtain ⟨j, hj⟩ := exists_member? hk
  rw [rewriteMember, placeMember, hj]
  dsimp only
  rw [hR (k, j) (mem_of_member? hj), Outcome.ok_bind]
  rfl

theorem renameMembers_eq (context : List String) (members : List (String × Json)) :
    renameMembers remap context members =
      gatherMembers (newKey remap context) (inObject remap context (renameKeys remap)) members := by
  induction members with
  | nil => rfl
  | cons m members ih =>
      rw [renameMembers, ih]
      rfl

/-- The loop over the keys of an object whose values are rewritten without an error, into values
of the same kind. -/
theorem foldlM_rewriteMember {rewriteValue : List String → Json → VcxResult Json}
    {R : List String → Json → Json} {context : List String} {p : Json → Prop}
    (hR : ∀ j, p j → ∀ context, rewriteValue context j = .ok (R context j) ∧ p (R context j))
    {members : List (String × Json)} (hmembers : ∀ m ∈ members, p m.2)
    (hsorted : (members.map Prod.fst).Pairwise (· < ·)) {waiting placed : List String}
    (hkeys : waiting ++ placed = members.map Prod.fst) :
    placed.reverse.foldlM (rewriteMember remap rewriteValue context) members =
        .ok (placed.foldr (placeMember (newKey remap context) (inObject remap context R)) members) ∧
      ∀ m ∈ placed.foldr (placeMember (newKey remap context) (inObject remap context R)) members,
        p m.2 := by
  induction placed generalizing waiting with
  | nil => exact ⟨rfl, hmembers⟩
  | cons k placed ih =>
      have hkeys' : waiting ++ [k] ++ placed = members.map Prod.fst := by
        rw [append_assoc, singleton_append]
        exact hkeys
      obtain ⟨hrun, hvalues⟩ := ih hkeys'
      have hplaced := placed_foldr (f := newKey remap context)
        (g := inObject remap context R) hsorted hkeys'
      rw [foldr_cons]
      generalize placed.foldr (placeMember (newKey remap context) (inObject remap context R))
        members = map at hrun hvalues hplaced ⊢
      have hk : k ∈ map.map Prod.fst :=
        hplaced.present k (mem_append_right _ (mem_singleton.mpr rfl))
      have hround := @rewriteMember_eq _ _ remap _ _ context _ _ hk
        (fun m hm context => (hR m.2 (hvalues m hm) context).1)
      constructor
      · rw [reverse_cons, foldlM_append, hrun, Outcome.ok_bind, foldlM_cons, hround,
          Outcome.ok_bind]
        rfl
      · intro m hm
        obtain ⟨j, hj⟩ := exists_member? hk
        rw [placeMember, hj] at hm
        obtain rfl | hm := mem_putMember hm
        · exact (hR j (hvalues (k, j) (mem_of_member? hj)) _).2
        · exact hvalues m (mem_filter.mp hm).1

theorem mappedKeyRewriteIn_leaf {j : Json} (hobj : j.asObject = none) (depth : ℕ)
    (context : List String) : mappedKeyRewriteIn remap (depth + 1) context j = .ok j := by
  cases j with
  | obj members => cases hobj
  | _ => rfl

/-- A value that an answer of the recursion is to be: what every depth beyond the height gives,
and the renamed value exactly where no key stands in the way. -/
structure Rewritten (remap : List (T × String)) (n : ℕ) (context : List String) (j r : Json) :
    Prop where
  ordered : Ordered r
  height_le : height r ≤ n
  run : ∀ depth > n, mappedKeyRewriteIn remap depth context j = .ok r
  renamed : Distinct remap context j ∧ r = renameKeys remap context j ↔ Clear remap context j

theorem rewritten_leaf {j : Json} (hj : Ordered j) (hobj : j.asObject = none) (n : ℕ)
    (context : List String) : Rewritten remap n context j j where
  ordered := hj
  height_le := by
    cases j with
    | obj members => cases hobj
    | _ => exact Nat.zero_le n
  run depth hdepth := by
    obtain ⟨d, rfl⟩ := Nat.exists_eq_succ_of_ne_zero (Nat.ne_zero_of_lt hdepth)
    exact mappedKeyRewriteIn_leaf hobj d context
  renamed := by
    cases j with
    | obj members => cases hobj
    | arr elements =>
        constructor
        · rintro ⟨hdistinct, hsame⟩
          cases hdistinct with
          | arr hvalues => exact .arr hvalues (Json.arr.inj hsame).symm
          | leaf harr _ => cases harr
        · intro hclear
          cases hclear with
          | arr hvalues hsame =>
              refine ⟨.arr hvalues, ?_⟩
              rw [renameKeys, hsame]
          | leaf harr _ => cases harr
    | _ => exact iff_of_true ⟨.leaf rfl rfl, rfl⟩ (.leaf rfl rfl)

theorem rewritten_obj {n : ℕ} {R : List String → Json → Json}
    (hR : ∀ context j, Ordered j → height j ≤ n → Rewritten remap n context j (R context j))
    {members : List (String × Json)} (hsorted : (members.map Prod.fst).Pairwise (· < ·))
    (hvalues : ∀ m ∈ members, Ordered m.2) (hheight : ∀ m ∈ members, height m.2 ≤ n)
    (context : List String) :
    Rewritten remap (n + 1) context (.obj members)
      (.obj ((members.map Prod.fst).foldr
        (placeMember (newKey remap context) (inObject remap context R)) members)) := by
  have hloop : ∀ depth > n, _ := fun depth hdepth =>
    @foldlM_rewriteMember _ _ remap (mappedKeyRewriteIn remap depth) R context
      (fun j => Ordered j ∧ height j ≤ n)
      (fun j hj context => ⟨(hR context j hj.1 hj.2).run depth hdepth,
        (hR context j hj.1 hj.2).ordered, (hR context j hj.1 hj.2).height_le⟩)
      members (fun m hm => ⟨hvalues m hm, hheight m hm⟩) hsorted [] (members.map Prod.fst)
      (nil_append _)
  have hmap := (hloop (n + 1) (Nat.lt_succ_self n)).2
  constructor
  · exact .obj (placed_foldr hsorted (nil_append _)).sorted (fun m hm => (hmap m hm).1)
  · rw [height]
    exact Nat.succ_le_succ (heightMembers_le_iff.mpr (fun m hm => (hmap m hm).2))
  · intro depth hdepth
    obtain ⟨d, rfl⟩ := Nat.exists_eq_succ_of_ne_zero (Nat.ne_zero_of_lt hdepth)
    rw [mappedKeyRewriteIn, (hloop d (Nat.lt_of_succ_lt_succ hdepth)).1, Outcome.ok_bind]
    rfl
  · have hiff := @foldr_eq_gatherMembers_iff (newKey remap context) (inObject remap context R)
      members (inObject remap context (renameKeys remap)) hsorted
    have hrenamed : ∀ m ∈ members, (Distinct remap (context ++ [newKey remap context m.1]) m.2 ∧
        inObject remap context R m.1 m.2 = inObject remap context (renameKeys remap) m.1 m.2 ↔
          Clear remap (context ++ [newKey remap context m.1]) m.2) :=
      fun m hm => (hR _ m.2 (hvalues m hm) (hheight m hm)).renamed
    rw [renameKeys, renameMembers_eq]
    constructor
    · rintro ⟨hdistinct, heq⟩
      cases hdistinct with
      | obj hkeys hmembers =>
          obtain ⟨hpair, hsame⟩ := hiff.mp ⟨hkeys, Json.obj.inj heq⟩
          exact .obj hpair (fun m hm => (hrenamed m hm).mp ⟨hmembers m hm, hsame m hm⟩)
      | leaf _ hobj => cases hobj
    · intro hclear
      cases hclear with
      | obj hpair hmembers =>
          obtain ⟨hkeys, heq⟩ := hiff.mpr
            ⟨hpair, fun m hm => ((hrenamed m hm).mpr (hmembers m hm)).2⟩
          exact ⟨.obj hkeys (fun m hm => ((hrenamed m hm).mpr (hmembers m hm)).1), by rw [heq]⟩
      | leaf _ hobj => cases hobj

theorem exists_rewritten (n : ℕ) (context : List String) (j : Json) :
    ∃ r, Ordered j → height j ≤ n → Rewritten remap n context j r := by
  induction n generalizing context j with
  | zero =>
      refine ⟨j, fun hj hheight => rewritten_leaf hj ?_ 0 context⟩
      cases j with
      | obj members => cases hheight
      | _ => rfl
  | succ n ih =>
      choose R hR using ih
      cases j with
      | obj members =>
          refine ⟨.obj ((members.map Prod.fst).foldr (placeMember (newKey remap context)
            (inObject remap context R)) members), fun hj hheight => ?_⟩
          cases hj with
          | obj hsorted hvalues =>
              rw [height] at hheight
              exact rewritten_obj hR hsorted hvalues
                (heightMembers_le_iff.mp (Nat.le_of_succ_le_succ hheight)) context
          | leaf _ hobj => cases hobj
      | _ => exact ⟨_, fun hj _ => rewritten_leaf hj rfl (n + 1) context⟩

/-- Rewriting never fails, and renames every key at once exactly where no key stands in the way of
another one. -/
theorem mappedKeyRewrite_spec {val : Json} (h : Ordered val) :
    ∃ r, Depth.ComesTo (fun depth => mappedKeyRewrite remap depth val) (.ok r) ∧
      (Distinct remap [] val ∧ r = renameKeys remap [] val ↔ Clear remap [] val) := by
  obtain ⟨r, hr⟩ := @exists_rewritten _ _ remap (height val) [] val
  have hspec := hr h (Nat.le_refl _)
  exact ⟨r, ⟨height val + 1, fun depth hdepth => hspec.run depth hdepth⟩, hspec.renamed⟩

end

/-! ## Invites -/

def KeyDlgProof.short (proof : KeyDlgProof) : Json :=
  .obj [("d", .str proof.agentDid), ("k", .str proof.agentDelegatedKey),
    ("s", .str proof.signature)]

def SenderDetail.short (detail : SenderDetail) : Json :=
  .obj ([("d", .str detail.did), ("dp", detail.agentKeyDlgProof.short),
      ("l", optional detail.logoUrl), ("n", optional detail.name)] ++
    (match detail.publicDid with
      | some did => [("publicDID", .str did)]
      | none => []) ++
    [("v", .str detail.verkey)])

def SenderAgencyDetail.short (detail : SenderAgencyDetail) : Json :=
  .obj [("d", .str detail.did), ("e", .str detail.endpoint), ("v", .str detail.verkey)]

/-- The invite as it is shown. -/
def InviteDetail.short (invite : InviteDetail) : Json :=
  .obj [("id", .str invite.connReqId), ("s", invite.senderDetail.short),
    ("sa", invite.senderAgencyDetail.short), ("sc", .str invite.statusCode),
    ("sm", .str invite.statusMsg), ("t", .str invite.targetName),
    ("threadId", optional invite.threadId)]

section

variable {T : Type} [KeyMatch T] (remap : List (T × String)) (depth : ℕ) (context : List String)

theorem newKey_cons (rule : T × String) (k : String) :
    newKey (rule :: remap) context k =
      if KeyMatch.isMatch rule.1 k context then rule.2 else newKey remap context k := by
  rw [newKey, find?_cons]
  cases KeyMatch.isMatch rule.1 k context <;> rfl

theorem newKey_nil (k : String) : newKey ([] : List (T × String)) context k = k := rfl

theorem rewriteIn_str (s : String) :
    mappedKeyRewriteIn remap (depth + 1) context (.str s) = .ok (.str s) := rfl

theorem rewriteIn_optional (s : Option String) :
    mappedKeyRewriteIn remap (depth + 1) context (optional s) = .ok (optional s) := by
  cases s <;> rfl

end

section

variable (depth : ℕ) (context : List String)

theorem abbrv_keyDlgProof (proof : KeyDlgProof) :
    mappedKeyRewriteIn abbreviations (depth + 2) context proof.toJson = .ok proof.short := by
  -- names of members are literals, so their order is found by evaluation
  simp [-String.lt_iff_ltb, mappedKeyRewriteIn, KeyDlgProof.toJson, rewriteMember,
    member?_cons, newKey_cons, abbreviations, KeyMatch.isMatch, Json.putMember,
    KeyDlgProof.short]

theorem abbrv_senderAgencyDetail (detail : SenderAgencyDetail) :
    mappedKeyRewriteIn abbreviations (depth + 2) context detail.toJson = .ok detail.short := by
  simp [-String.lt_iff_ltb, mappedKeyRewriteIn, SenderAgencyDetail.toJson, rewriteMember,
    member?_cons, newKey_cons, abbreviations, KeyMatch.isMatch, Json.putMember,
    SenderAgencyDetail.short]

theorem abbrv_senderDetail (detail : SenderDetail) :
    mappedKeyRewriteIn abbreviations (depth + 3) context detail.toJson = .ok detail.short := by
  have hproof := abbrv_keyDlgProof depth (context ++ ["dp"]) detail.agentKeyDlgProof
  have hstr := rewriteIn_str abbreviations (depth + 1)
  have hoptional := rewriteIn_optional abbreviations (depth + 1)
  rw [SenderDetail.toJson, SenderDetail.short, mappedKeyRewriteIn]
  generalize mappedKeyRewriteIn abbreviations (depth + 2) = rewriteValue at *
  cases detail.publicDid <;>
    simp [-String.lt_iff_ltb, rewriteMember, member?_cons, newKey_cons, newKey_nil,
      abbreviations, KeyMatch.isMatch, Json.putMember, hproof, hstr, hoptional]

theorem abbrv_inviteDetail (invite : InviteDetail) :
    abbrvEventDetail (depth + 4) invite.toJson = .ok invite.short := by
  have hsender := abbrv_senderDetail depth ["s"] invite.senderDetail
  have hagency := abbrv_senderAgencyDetail (depth + 1) ["sa"] invite.senderAgencyDetail
  have hstr := rewriteIn_str abbreviations (depth + 2)
  have hoptional := rewriteIn_optional abbreviations (depth + 2)
  rw [InviteDetail.toJson, InviteDetail.short, abbrvEventDetail, mappedKeyRewrite,
    mappedKeyRewriteIn]
  generalize mappedKeyRewriteIn abbreviations (depth + 3) = rewriteValue at *
  simp [-String.lt_iff_ltb, rewriteMember, member?_cons, newKey_cons, newKey_nil,
    abbreviations, KeyMatch.isMatch, Json.putMember, hsender, hagency, hstr, hoptional]

theorem unabbrv_keyDlgProof (proof : KeyDlgProof) :
    mappedKeyRewriteIn unabbreviations (depth + 2) (context ++ ["agentKeyDlgProof"]) proof.short =
      .ok proof.toJson := by
  simp [-String.lt_iff_ltb, mappedKeyRewriteIn, KeyDlgProof.toJson, rewriteMember,
    member?_cons, newKey_cons, unabbreviations, KeyMatch.isMatch, Json.putMember,
    KeyDlgProof.short]

theorem unabbrv_senderAgencyDetail (detail : SenderAgencyDetail) :
    mappedKeyRewriteIn unabbreviations (depth + 2) ["senderAgencyDetail"] detail.short =
      .ok detail.toJson := by
  simp [-String.lt_iff_ltb, mappedKeyRewriteIn, SenderAgencyDetail.toJson, rewriteMember,
    member?_cons, newKey_cons, unabbreviations, KeyMatch.isMatch, Json.putMember,
    SenderAgencyDetail.short]

theorem unabbrv_senderDetail (detail : SenderDetail) :
    mappedKeyRewriteIn unabbreviations (depth + 3) ["senderDetail"] detail.short =
      .ok detail.toJson := by
  have hproof := unabbrv_keyDlgProof depth ["senderDetail"] detail.agentKeyDlgProof
  have hstr := rewriteIn_str unabbreviations (depth + 1)
  have hoptional := rewriteIn_optional unabbreviations (depth + 1)
  rw [SenderDetail.toJson, SenderDetail.short, mappedKeyRewriteIn]
  rw [cons_append, nil_append] at hproof
  generalize mappedKeyRewriteIn unabbreviations (depth + 2) = rewriteValue at *
  cases detail.publicDid <;>
    simp [-String.lt_iff_ltb, rewriteMember, member?_cons, newKey_cons, newKey_nil,
      unabbreviations, KeyMatch.isMatch, Json.putMember, hproof, hstr, hoptional]

theorem unabbrv_inviteDetail (invite : InviteDetail) :
    unabbrvEventDetail (depth + 4) invite.short = .ok invite.toJson := by
  have hsender := unabbrv_senderDetail depth invite.senderDetail
  have hagency := unabbrv_senderAgencyDetail (depth + 1) invite.senderAgencyDetail
  have hstr := rewriteIn_str unabbreviations (depth + 2)
  have hoptional := rewriteIn_optional unabbreviations (depth + 2)
  rw [InviteDetail.toJson, InviteDetail.short, unabbrvEventDetail, mappedKeyRewrite,
    mappedKeyRewriteIn]
  generalize mappedKeyRewriteIn unabbreviations (depth + 3) = rewriteValue at *
  simp [-String.lt_iff_ltb, rewriteMember, member?_cons, newKey_cons, newKey_nil,
    unabbreviations, KeyMatch.isMatch, Json.putMember, hsender, hagency, hstr, hoptional]

end

theorem unabbrv_abbrv (invite : InviteDetail) : Depth.ComesTo
    (fun depth => abbrvEventDetail depth invite.toJson >>= unabbrvEventDetail depth)
      (.ok invite.toJson) := by
  refine ⟨4, fun depth hdepth => ?_⟩
  obtain ⟨d, rfl⟩ := Nat.exists_eq_add_of_le' hdepth
  beta_reduce
  rw [abbrv_inviteDetail, Outcome.ok_bind, unabbrv_inviteDetail]

/-- Abbreviated invites are read back as they were; and rewriting comes to an answer that is an
error or the value with its keys renamed at once exactly where no key stands in the way. -/
theorem invite_rewrite_iff (invite : InviteDetail) {T : Type} [KeyMatch T]
    (remap : List (T × String)) {val : Json} (h : Ordered val) :
    Depth.ComesTo (fun depth => abbrvEventDetail depth invite.toJson >>= unabbrvEventDetail depth)
        (.ok invite.toJson) ∧
      ∃ answer, Depth.ComesTo (fun depth => mappedKeyRewrite remap depth val) answer ∧
        ((∃ err, answer = .err err) ∨
            (Distinct remap [] val ∧ answer = .ok (renameKeys remap [] val)) ↔
          Clear remap [] val) := by
  refine ⟨unabbrv_abbrv invite, ?_⟩
  obtain ⟨r, hr, hiff⟩ := @mappedKeyRewrite_spec _ _ remap _ h
  refine ⟨.ok r, hr, ?_⟩
  rw [← hiff, Outcome.ok.injEq]
  exact or_iff_right (fun ⟨_, h⟩ => by cases h)

/-- An empty invite and an object of one key that is to be renamed. -/
theorem invite_rewrite_one :
    Depth.ComesTo (fun depth => abbrvEventDetail depth (InviteDetail.toJson
          ⟨"", "", ⟨some "", ⟨"", "", ""⟩, "", some "", "", none⟩, ⟨"", "", ""⟩, "", "", none⟩) >>=
        unabbrvEventDetail depth)
      (.ok (InviteDetail.toJson
        ⟨"", "", ⟨some "", ⟨"", "", ""⟩, "", some "", "", none⟩, ⟨"", "", ""⟩, "", "", none⟩)) ∧
      ∃ answer, Depth.ComesTo
          (fun depth => mappedKeyRewrite [("d", "devin")] depth (.obj [("d", .str "d")])) answer ∧
        ((∃ err, answer = .err err) ∨
            (Distinct [("d", "devin")] [] (.obj [("d", .str "d")]) ∧
              answer = .ok (renameKeys [("d", "devin")] [] (.obj [("d", .str "d")]))) ↔
          Clear [("d", "devin")] [] (.obj [("d", .str "d")])) :=
  invite_rewrite_iff _ _ (.obj (pairwise_singleton _ _)
    (fun m hm => by
      rw [mem_singleton.mp hm]
      exact .leaf rfl rfl))

/-- An invite that has the status code under both names comes back with one of them. With a table
by which two keys change names, the later key is renamed first and takes the place of the earlier
one, whose value is gone, although the renamed keys are distinct. -/
theorem keys_overwritten :
    Depth.ComesTo (fun depth => unabbrvEventDetail depth
        (.obj [("sc", .str "MS-102"), ("statusCode", .str "MS-101")]))
      (.ok (.obj [("statusCode", .str "MS-102")])) ∧
    Distinct [("a", "b"), ("b", "a")] [] (.obj [("a", .int 1), ("b", .int 2)]) ∧
    renameKeys [("a", "b"), ("b", "a")] [] (.obj [("a", .int 1), ("b", .int 2)]) =
      .obj [("a", .int 2), ("b", .int 1)] ∧
    Depth.ComesTo (fun depth => mappedKeyRewrite [("a", "b"), ("b", "a")] depth
        (.obj [("a", .int 1), ("b", .int 2)]))
      (.ok (.obj [("b", .int 2)])) := by
  refine ⟨⟨2, fun depth hdepth => ?_⟩, .obj (by decide) ?_, by decide, 2, fun depth hdepth => ?_⟩
  · obtain ⟨d, rfl⟩ := Nat.exists_eq_add_of_le' hdepth
    rfl
  · intro m hm
    obtain rfl | hm := mem_cons.mp hm
    · exact .leaf rfl rfl
    · rw [mem_singleton.mp hm]
      exact .leaf rfl rfl
  · obtain ⟨d, rfl⟩ := Nat.exists_eq_add_of_le' hdepth
    rfl

end IndySdk.Vcx.Invite
