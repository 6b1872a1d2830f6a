import IndySdk.QueryEncryption
import IndySdk.WalletRuns

/-!
# The rows of stored tags

A tag is stored in one of two tables under its encrypted name. The marker of plaintext tags is
taken off when a tag is written, when it is deleted and when it is asked for, and put back when it
is read. All three ways come to the row of the same tag.
-/

namespace IndySdk.Wallet

namespace Language.TagName

/-- The stored name that a name of an encrypted query stands for. -/
def stored : TagName → Wallet.TagName
  | .encryptedTagName name => .ofEncrypted name
  | .plainTagName name => .ofPlain name

theorem eq_tilde_iff {s : String} : isPlain s ∧ (Bytes.ofText s).length = 1 ↔ s = "~" := by
  constructor
  · rintro ⟨hplain, hlength⟩
    obtain ⟨rest, rfl, hrest⟩ := exists_of_isPlain hplain
    have hempty : Bytes.ofText rest = [] := by
      rw [← hrest, List.drop_eq_nil_iff, hlength]
    have hnone : rest = "" := Bytes.ofText_injective (hempty.trans (by decide))
    rw [hnone]
    rfl
  · rintro rfl
    decide

theorem exists_ofText_iff {s : String} : (∃ name, ofText s = .ok name) ↔ s ≠ "" ∧ s ≠ "~" := by
  rw [← not_or, ← eq_tilde_iff, ofText]
  split
  · rename_i h
    exact iff_of_false (fun hok => by cases hok.choose_spec) (fun hnot => hnot h)
  · rename_i h
    refine iff_of_true ?_ h
    split
    · exact ⟨_, rfl⟩
    · exact ⟨_, rfl⟩

variable (wc : WalletCrypto) (keys : Keys)

theorem stored_encryptName {s : String} {name : TagName} (h : ofText s = .ok name) :
    (encryptName wc keys name).stored = encryptTagName wc keys s := by
  rw [← encryptTag_name wc keys s ""]
  cases name with
  | plainTagName name =>
    rw [encryptTag_of_plain h]
    rfl
  | encryptedTagName name =>
    rw [encryptTag_of_encrypted h]
    rfl

end Language.TagName

variable (wc : WalletCrypto) (keys : Keys)

theorem decrypts_encryptTags {tags : AssocMap String String} {etags : List Tag}
    (h : etags.Perm (encryptTags wc keys tags)) :
    Decrypts wc keys etags (fun n => tags.lookup n) :=
  fun _ => h.mem_iff.trans (mem_encryptTags wc keys)

theorem decryptTags_encryptTags {tags : AssocMap String String} {etags : List Tag}
    (h : etags.Perm (encryptTags wc keys tags)) :
    ∃ m, decryptTags wc keys (some etags) = .ok (some m) ∧ ∀ n, m.lookup n = tags.lookup n := by
  refine decryptTags_of_decrypts wc keys ?_ (decrypts_encryptTags wc keys h)
  exact (h.pairwise_iff Ne.symm).mpr (pairwise_encryptTags wc keys tags)

theorem lookup_eq_of_perm {tags tags' : AssocMap String String}
    (h : (encryptTags wc keys tags).Perm (encryptTags wc keys tags')) (n : String) :
    tags.lookup n = tags'.lookup n := by
  obtain ⟨m, hm, hlookup⟩ := decryptTags_encryptTags wc keys (List.Perm.refl _)
  obtain ⟨m', hm', hlookup'⟩ := decryptTags_encryptTags wc keys h
  cases Option.some.inj (Outcome.ok.inj (hm.symm.trans hm'))
  rw [← hlookup, hlookup']

variable {wc keys} {tables : TagTables} {itemId : ℕ} {tags : String → Option String}

theorem TagsAre.row_iff (h : TagsAre wc keys tables itemId tags) (n : String) (tag : Tag) :
    tables.Holds itemId tag ∧ tag.name = encryptTagName wc keys n ↔
      ∃ v, tags n = some v ∧ tag = encryptTag wc keys n v := by
  rw [h]
  constructor
  · rintro ⟨⟨n', v, hv, rfl⟩, hname⟩
    rw [encryptTag_name, encryptTagName_inj] at hname
    exact ⟨v, hname ▸ hv, by rw [hname]⟩
  · rintro ⟨v, hv, rfl⟩
    exact ⟨⟨n, v, hv, rfl⟩, encryptTag_name wc keys n v⟩

theorem TagsAre.matches_eq (h : TagsAre wc keys tables itemId tags) {n : String}
    {name : Language.TagName} (hname : Language.TagName.ofText n = .ok name)
    (like : String → String → Bool) (v : String) :
    ((Language.Operator.compare .eq name (.unencrypted v)).encrypted wc keys).matches like tables
      itemId = decide (tags n = some v) := by
  rw [Language.encrypted_matches like h (.compare hname .eq (.inl rfl) v),
    Language.Operator.holds, Language.TagName.lookup_of_ofText tags hname]
  cases tags n with
  | none => rfl
  | some v' =>
    refine decide_eq_decide.mpr ?_
    rw [Option.some.injEq]

/-- Tags are read as they were written, whatever the order in which they come back, and different
tags are written differently. For each name there is one row: the one that the written tag has,
that a deletion of the name removes, and that a query for the name looks at. Only the empty name
and the bare marker cannot be asked for. -/
theorem tagCodec_sound (wc : WalletCrypto) (keys : Keys) (tags tags' : AssocMap String String) :
    (∀ etags, etags.Perm (encryptTags wc keys tags) →
      ∃ m, decryptTags wc keys (some etags) = .ok (some m) ∧ ∀ n, m.lookup n = tags.lookup n) ∧
    ((encryptTags wc keys tags).Perm (encryptTags wc keys tags') →
      ∀ n, tags.lookup n = tags'.lookup n) ∧
    (∀ tables itemId, TagsAre wc keys tables itemId (fun n => tags.lookup n) → ∀ n,
      (∀ tag, tables.Holds itemId tag ∧ tag.name = encryptTagName wc keys n ↔
        ∃ v, tags.lookup n = some v ∧ tag = encryptTag wc keys n v) ∧
      TagsAre wc keys (tables.deleteTags itemId (encryptTagNames wc keys [n])) itemId
        (fun n' => if n' = n then none else tags.lookup n') ∧
      ∀ name, Language.TagName.ofText n = .ok name →
        (Language.encryptName wc keys name).stored = encryptTagName wc keys n ∧
        ∀ like v, ((Language.Operator.compare .eq name (.unencrypted v)).encrypted wc keys).matches
          like tables itemId = decide (tags.lookup n = some v)) ∧
    ∀ n, (∃ name, Language.TagName.ofText n = .ok name) ↔ n ≠ "" ∧ n ≠ "~" := by
  refine ⟨fun etags h => decryptTags_encryptTags wc keys h, lookup_eq_of_perm wc keys, ?_,
    fun n => Language.TagName.exists_ofText_iff⟩
  intro tables itemId h n
  refine ⟨h.row_iff n, ?_, ?_⟩
  · have hdeleted := tagsAre_deleteTags h [n]
    simp only [List.mem_singleton] at hdeleted
    exact hdeleted
  · intro name hname
    exact ⟨Language.TagName.stored_encryptName wc keys hname, h.matches_eq hname⟩

/-- A tag of the bare marker is written and read, but cannot be asked for. -/
theorem bareMarker_refused :
    (∃ m, decryptTags plainCrypto zeroKeys
        (some (encryptTags plainCrypto zeroKeys (AList.insert "~" "v" ∅))) = .ok (some m) ∧
      m.lookup "~" = some "v") ∧
    Language.TagName.ofText "~" =
      .err (errMsg .walletQueryError "Tag name must not be empty") := by
  obtain ⟨m, hm, hlookup⟩ := decryptTags_encryptTags plainCrypto zeroKeys (List.Perm.refl _)
  refine ⟨⟨m, hm, ?_⟩, ?_⟩
  · rw [hlookup, AList.lookup_insert]
  · rw [Language.TagName.ofText, if_pos]
    exact .inr (Language.TagName.eq_tilde_iff.mpr rfl)

end IndySdk.Wallet
