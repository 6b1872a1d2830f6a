import Mathlib.Algebra.GroupWithZero.Nat
import IndySdk.PagedSearch
import Mathlib.Algebra.BigOperators.Group.List.Basic

/-!
# The counts of the fetches

A portion is meant to hold at most as many credentials as were asked for, and the portions one after
the other to be the stored credentials that satisfy the item, in the order of the storage. The
counter of a portion is a copy that is not kept, so a count above one ends with the search; and a
value that is no 32-bit number fails the fetch that reads it.
-/

namespace IndySdk.Anoncreds

open Outcome Numerals List Paging
open Wallet (WalletRecord)

section

variable (toLowercase : String → String) (wallet : CredentialWallet) (reading : Reading)

/-! ### What is asked for -/

def storedCredential (r : IndyResult WalletRecord) : Option (String × Credential) :=
  match r >>= getCredential wallet with
  | .ok stored => some stored
  | .err _ | .panic => none

/-- The number that a credential has for a predicate, whatever its size. -/
def predicateNumber (predicate : PredicateInfo) (referent : String) (credential : Credential) :
    Option ℤ :=
  (getCredentialValuesForAttribute toLowercase (reading referent) credential.values
    predicate.name).bind (fun values => parseInteger values.encoded)

/-- The numbers that a predicate is decided for. -/
def FitsWord (number : ℤ) : Prop := -2 ^ 31 ≤ number ∧ number < 2 ^ 31

instance (number : ℤ) : Decidable (FitsWord number) :=
  inferInstanceAs (Decidable (-2 ^ 31 ≤ number ∧ number < 2 ^ 31))

/-- A credential satisfies a predicate by its number; each satisfies an attribute. -/
def meets (predicateInfo : Option PredicateInfo) (referent : String) (credential : Credential) :
    Bool :=
  match predicateInfo with
  | none => true
  | some predicate =>
    match predicateNumber toLowercase reading predicate referent credential with
    | some number => predicate.pValue ≤ number
    | none => false

/-- The entry of a stored credential that satisfies the item. -/
def wanted (predicateInfo : Option PredicateInfo) (interval : Option NonRevocedInterval)
    (r : IndyResult WalletRecord) : Option RequestedCredential :=
  (storedCredential wallet r).bind (fun stored =>
    if meets toLowercase reading predicateInfo stored.1 stored.2 then
      some ⟨getCredentialInfo stored.1 stored.2, interval⟩
    else none)

/-- A record is read as a credential, and the number that a predicate asks for fits a word. -/
def Comparable (predicateInfo : Option PredicateInfo) (r : IndyResult WalletRecord) : Prop :=
  ∃ stored, storedCredential wallet r = some stored ∧
    ∀ predicate, predicateInfo = some predicate →
      ∃ number, predicateNumber toLowercase reading predicate stored.1 stored.2 = some number ∧
        FitsWord number

/-- The portions hold what they may, and one after the other they are as much of the given
credentials as was asked for. -/
def InOrder (fetched : List (ℕ × IndyResult (List RequestedCredential)))
    (all : List RequestedCredential) : Prop :=
  (∀ page ∈ fetched, ∃ found, page.2 = .ok found ∧ found.length ≤ page.1) ∧
    credentials fetched = all.take (fetched.map Prod.fst).sum

/-- The counts that are fetched for a referent. -/
def countsFor (referent : String) (inputs : List (String × ℕ)) : List ℕ :=
  (inputs.filter (fun input => input.1 = referent)).map Prod.snd

/-- Each count is at most one, or covers what is left. -/
def Covering : ℕ → List ℕ → Prop
  | _, [] => True
  | left, count :: counts => (count ≤ 1 ∨ left ≤ count) ∧ Covering (left - count) counts

instance instDecidableCovering : (left : ℕ) → (counts : List ℕ) → Decidable (Covering left counts)
  | _, [] => inferInstanceAs (Decidable True)
  | left, count :: counts =>
    have := instDecidableCovering (left - count) counts
    inferInstanceAs (Decidable ((count ≤ 1 ∨ left ≤ count) ∧ Covering (left - count) counts))

/-- The records that the fetches read: all of them after a count above one. -/
def recordsRead (predicateInfo : Option PredicateInfo) (interval : Option NonRevocedInterval)
    (counts : List ℕ) (found : List (IndyResult WalletRecord)) : List (IndyResult WalletRecord) :=
  if ∃ count ∈ counts, 2 ≤ count then found
  else upTo (wanted toLowercase wallet reading predicateInfo interval) counts.sum found

/-- The portions that a search yields for the counts. -/
def serve (predicateInfo : Option PredicateInfo) (interval : Option NonRevocedInterval) :
    List ℕ → List (IndyResult WalletRecord) → List (ℕ × IndyResult (List RequestedCredential))
  | [], _ => []
  | count :: counts, found =>
    let page := getRequestedCredentials toLowercase wallet reading found predicateInfo interval
      (some count)
    (count, page.1) :: serve predicateInfo interval counts page.2

end

variable {toLowercase : String → String} {wallet : CredentialWallet} {reading : Reading}
  {predicateInfo : Option PredicateInfo} {interval : Option NonRevocedInterval}
  {r : IndyResult WalletRecord} {found : List (IndyResult WalletRecord)}

/-! ### Records -/

theorem storedCredential_eq_some {stored : String × Credential} :
    storedCredential wallet r = some stored ↔ r >>= getCredential wallet = .ok stored := by
  unfold storedCredential
  cases r >>= getCredential wallet with
  | ok stored' =>
    constructor
    · exact fun h => congrArg Outcome.ok (Option.some.inj h)
    · exact fun h => congrArg some (Outcome.ok.inj h)
  | err e => exact ⟨(fun h => by cases h), (fun h => by cases h)⟩
  | panic => exact ⟨(fun h => by cases h), (fun h => by cases h)⟩

/-- A predicate is decided for the numbers that fit a word. -/
theorem satisfies_eq_ok {referent : String} {credential : Credential} {satisfy : Bool} :
    satisfies toLowercase reading predicateInfo referent credential = .ok satisfy ↔
      (∀ predicate, predicateInfo = some predicate → ∃ number,
        predicateNumber toLowercase reading predicate referent credential = some number ∧
          FitsWord number) ∧
        satisfy = meets toLowercase reading predicateInfo referent credential := by
  cases predicateInfo with
  | none =>
    constructor
    · intro h
      cases h
      refine ⟨?_, rfl⟩
      intro predicate h
      cases h
    · rintro ⟨-, rfl⟩
      rfl
  | some predicate =>
    unfold satisfies meets
    dsimp only
    cases hvalues : getCredentialValuesForAttribute toLowercase (reading referent)
        credential.values predicate.name with
    | none =>
      have hnumber : predicateNumber toLowercase reading predicate referent credential = none := by
        rw [predicateNumber, hvalues, Option.bind_none]
      rw [ofOption_none, err_bind]
      constructor
      · exact fun h => absurd h (err_ne_ok _ _)
      · rintro ⟨h, -⟩
        obtain ⟨number, hsome, -⟩ := h predicate rfl
        rw [hnumber] at hsome
        cases hsome
    | some values =>
      have hnumber : predicateNumber toLowercase reading predicate referent credential =
          parseInteger values.encoded := by
        rw [predicateNumber, hvalues, Option.bind_some]
      rw [ofOption_some, ok_bind, attributeSatisfyPredicate]
      cases predicate.pType
      dsimp only
      constructor
      · intro h
        cases hparse : parseSigned 32 values.encoded with
        | none =>
          rw [hparse] at h
          cases h
        | some number =>
          rw [hparse] at h
          obtain ⟨hinteger, hfits⟩ := parseSigned_eq_some_iff.mp hparse
          rw [hinteger] at hnumber
          refine ⟨?_, ?_⟩
          · rintro _ ⟨⟩
            exact ⟨number, hnumber, hfits⟩
          · rw [hnumber]
            exact (Outcome.ok.inj h).symm
      · rintro ⟨h, rfl⟩
        obtain ⟨number, hsome, hfits⟩ := h predicate rfl
        rw [hsome] at hnumber
        have hparse : parseSigned 32 values.encoded = some number :=
          parseSigned_eq_some_iff.mpr ⟨hnumber.symm, hfits⟩
        rw [hparse, hsome]

theorem selectRecord_eq_ok_iff {o : Option RequestedCredential} :
    selectRecord toLowercase wallet reading predicateInfo interval r = .ok o ↔
      Comparable toLowercase wallet reading predicateInfo r ∧
        o = wanted toLowercase wallet reading predicateInfo interval r := by
  unfold selectRecord
  constructor
  · intro h
    obtain ⟨record, hrecord, h⟩ := bind_eq_ok_iff.mp h
    obtain ⟨stored, hget, h⟩ := bind_eq_ok_iff.mp h
    obtain ⟨satisfy, hsatisfy, h⟩ := bind_eq_ok_iff.mp h
    have hstored : storedCredential wallet r = some stored :=
      storedCredential_eq_some.mpr (bind_eq_ok_iff.mpr ⟨record, hrecord, hget⟩)
    obtain ⟨hnumbers, rfl⟩ := satisfies_eq_ok.mp hsatisfy
    refine ⟨⟨stored, hstored, hnumbers⟩, ?_⟩
    rw [wanted, hstored, Option.bind_some]
    exact (Outcome.ok.inj h).symm
  · rintro ⟨⟨stored, hstored, hnumbers⟩, rfl⟩
    obtain ⟨record, hrecord, hget⟩ :=
      bind_eq_ok_iff.mp (storedCredential_eq_some.mp hstored)
    rw [hrecord, ok_bind, hget, ok_bind]
    rw [hrecord] at hstored
    dsimp only
    rw [satisfies_eq_ok.mpr ⟨hnumbers, rfl⟩, ok_bind, wanted, hstored]
    rfl

/-! ### Portions -/

theorem getRequestedCredentials_zero (found : List (IndyResult WalletRecord)) :
    getRequestedCredentials toLowercase wallet reading found predicateInfo interval (some 0) =
      (.ok [], found) :=
  if_pos rfl

theorem getRequestedCredentials_one (found : List (IndyResult WalletRecord)) :
    getRequestedCredentials toLowercase wallet reading found predicateInfo interval (some 1) =
      fetch (selectRecord toLowercase wallet reading predicateInfo interval)
        (fun _ => true) 0 found :=
  if_neg (by simp)

theorem getRequestedCredentials_more {count : ℕ} (h : 2 ≤ count)
    (found : List (IndyResult WalletRecord)) :
    getRequestedCredentials toLowercase wallet reading found predicateInfo interval (some count) =
      fetch (selectRecord toLowercase wallet reading predicateInfo interval)
        (fun _ => false) 0 found := by
  have hreached : countReached (some count) = fun _ => false := by
    funext taken
    rw [countReached, decide_eq_false_iff_not]
    omega
  rw [getRequestedCredentials, hreached]
  exact if_neg (fun hzero => by cases hzero; omega)

theorem inOrder_cons {count : ℕ} {page : IndyResult (List RequestedCredential)}
    {fetched : List (ℕ × IndyResult (List RequestedCredential))}
    {all : List RequestedCredential} :
    InOrder ((count, page) :: fetched) all ↔
      ∃ found, page = .ok found ∧ found.length ≤ count ∧
        (∀ page ∈ fetched, ∃ found, page.2 = .ok found ∧ found.length ≤ page.1) ∧
        found ++ credentials fetched = all.take (count + (fetched.map Prod.fst).sum) := by
  have hfirst : ∀ found, credentials ((count, .ok found) :: fetched) =
      found ++ credentials fetched := fun found => flatMap_cons
  rw [InOrder, forall_mem_cons, map_cons, sum_cons]
  constructor
  · rintro ⟨⟨⟨found, rfl, hle⟩, hrest⟩, hall⟩
    rw [hfirst] at hall
    exact ⟨found, rfl, hle, hrest, hall⟩
  · rintro ⟨found, rfl, hle, hrest, hall⟩
    rw [hfirst]
    exact ⟨⟨⟨found, rfl, hle⟩, hrest⟩, hall⟩

theorem inOrder_first {count : ℕ} {found rest : List RequestedCredential}
    {fetched : List (ℕ × IndyResult (List RequestedCredential))}
    (hle : found.length ≤ count) (hfull : rest = [] ∨ found.length = count) :
    InOrder ((count, .ok found) :: fetched) (found ++ rest) ↔ InOrder fetched rest := by
  have htake : ∀ n, (found ++ rest).take (count + n) = found ++ rest.take n := by
    intro n
    rcases hfull with rfl | hcount
    · rw [append_nil, take_nil, append_nil]
      exact take_of_length_le (by omega)
    · rw [← hcount, take_length_add_append]
  rw [inOrder_cons, htake, InOrder]
  constructor
  · rintro ⟨_, ⟨⟩, -, hrest, hall⟩
    exact ⟨hrest, append_cancel_left hall⟩
  · rintro ⟨hrest, hall⟩
    exact ⟨found, rfl, hle, hrest, by rw [hall]⟩

theorem covering_zero (counts : List ℕ) : Covering 0 counts := by
  induction counts with
  | nil => trivial
  | cons count counts ih =>
    rw [Covering, Nat.zero_sub]
    exact ⟨.inr (Nat.zero_le count), ih⟩

theorem recordsRead_nil (counts : List ℕ) :
    recordsRead toLowercase wallet reading predicateInfo interval counts [] = [] := by
  rw [recordsRead, upTo_nil, ite_self]

theorem recordsRead_zero (counts : List ℕ) (found : List (IndyResult WalletRecord)) :
    recordsRead toLowercase wallet reading predicateInfo interval (0 :: counts) found =
      recordsRead toLowercase wallet reading predicateInfo interval counts found := by
  simp [recordsRead]

theorem recordsRead_some {counts : List ℕ} {entry : RequestedCredential}
    (h : wanted toLowercase wallet reading predicateInfo interval r = some entry) :
    recordsRead toLowercase wallet reading predicateInfo interval (1 :: counts) (r :: found) =
      r :: recordsRead toLowercase wallet reading predicateInfo interval counts found := by
  have hone : ¬ (2 ≤ 1) := by decide
  simp only [recordsRead, exists_mem_cons_iff, hone, false_or, sum_cons, Nat.add_comm 1,
    upTo_some h]
  split_ifs <;> rfl

theorem recordsRead_none {counts : List ℕ}
    (h : wanted toLowercase wallet reading predicateInfo interval r = none) :
    recordsRead toLowercase wallet reading predicateInfo interval (1 :: counts) (r :: found) =
      r :: recordsRead toLowercase wallet reading predicateInfo interval (1 :: counts) found := by
  simp only [recordsRead, sum_cons, Nat.add_comm 1, upTo_none h]
  split_ifs <;> rfl

theorem recordsRead_more {count : ℕ} (h : 2 ≤ count) (counts : List ℕ)
    (found : List (IndyResult WalletRecord)) :
    recordsRead toLowercase wallet reading predicateInfo interval (count :: counts) found =
      found :=
  if_pos ⟨count, mem_cons_self, h⟩

theorem collect_comparable {all : List RequestedCredential} :
    collect (selectRecord toLowercase wallet reading predicateInfo interval) found =
        .ok all ↔
      (∀ r ∈ found, Comparable toLowercase wallet reading predicateInfo r) ∧
        all = found.filterMap (wanted toLowercase wallet reading predicateInfo interval) := by
  rw [collect_eq_ok]
  constructor
  · rintro ⟨hread, rfl⟩
    refine ⟨fun r hr => (selectRecord_eq_ok_iff.mp (hread r hr)).1, ?_⟩
    exact filterMap_congr (fun r hr => (selectRecord_eq_ok_iff.mp (hread r hr)).2)
  · rintro ⟨hcomparable, rfl⟩
    have hread : ∀ r ∈ found,
        selectRecord toLowercase wallet reading predicateInfo interval r =
          .ok (wanted toLowercase wallet reading predicateInfo interval r) :=
      fun r hr => selectRecord_eq_ok_iff.mpr ⟨hcomparable r hr, rfl⟩
    have hitem : ∀ r ∈ found,
        item (selectRecord toLowercase wallet reading predicateInfo interval) r =
          wanted toLowercase wallet reading predicateInfo interval r := by
      intro r hr
      rw [item, hread r hr]
    refine ⟨fun r hr => by rw [hitem r hr, hread r hr], ?_⟩
    exact (filterMap_congr hitem).symm

theorem fetch_one_cons {r : IndyResult WalletRecord} (found : List (IndyResult WalletRecord))
    (h : Comparable toLowercase wallet reading predicateInfo r) :
    fetch (selectRecord toLowercase wallet reading predicateInfo interval) (fun _ => true)
        0 (r :: found) =
      match wanted toLowercase wallet reading predicateInfo interval r with
      | some entry => (.ok [entry], found)
      | none => fetch (selectRecord toLowercase wallet reading predicateInfo interval)
          (fun _ => true) 0 found := by
  rw [fetch, selectRecord_eq_ok_iff.mpr ⟨h, rfl⟩]
  cases wanted toLowercase wallet reading predicateInfo interval r with
  | none => rfl
  | some entry => rfl

theorem comparable_of_fetch_one {r : IndyResult WalletRecord}
    {found : List (IndyResult WalletRecord)} {page : List RequestedCredential}
    (h : (fetch (selectRecord toLowercase wallet reading predicateInfo interval)
      (fun _ => true) 0 (r :: found)).1 = .ok page) :
    Comparable toLowercase wallet reading predicateInfo r := by
  rw [fetch] at h
  cases hselect : selectRecord toLowercase wallet reading predicateInfo interval r with
  | ok selected => exact (selectRecord_eq_ok_iff.mp hselect).1
  | err e =>
    rw [hselect] at h
    cases h
  | panic =>
    rw [hselect] at h
    cases h

/-- The portions are in order exactly when every count is at most one or covers what is left, and
every record that is read can be compared. -/
theorem serve_inOrder_iff (counts : List ℕ) (found : List (IndyResult WalletRecord)) :
    InOrder (serve toLowercase wallet reading predicateInfo interval counts found)
        (found.filterMap (wanted toLowercase wallet reading predicateInfo interval)) ↔
      Covering (found.filterMap
          (wanted toLowercase wallet reading predicateInfo interval)).length counts ∧
        ∀ r ∈ recordsRead toLowercase wallet reading predicateInfo interval counts found,
          Comparable toLowercase wallet reading predicateInfo r := by
  induction counts generalizing found with
  | nil =>
    have hread : recordsRead toLowercase wallet reading predicateInfo interval [] found = [] := by
      simp [recordsRead, upTo]
    rw [hread]
    constructor
    · exact fun _ => ⟨trivial, fun _ h => absurd h not_mem_nil⟩
    · exact fun _ => ⟨fun _ h => absurd h not_mem_nil, rfl⟩
  | cons count counts ih =>
    have hnil : InOrder (serve toLowercase wallet reading predicateInfo interval counts []) [] :=
      (ih []).mpr ⟨covering_zero counts, by
        rw [recordsRead_nil]
        exact fun _ h => absurd h not_mem_nil⟩
    rw [serve, Covering]
    rcases Nat.lt_trichotomy count 1 with hzero | rfl | hmore
    · -- nothing is fetched
      obtain rfl : count = 0 := by omega
      have hfirst := @inOrder_first 0 [] (found.filterMap
        (wanted toLowercase wallet reading predicateInfo interval))
        (serve toLowercase wallet reading predicateInfo interval counts found) le_rfl (.inr rfl)
      rw [nil_append] at hfirst
      rw [getRequestedCredentials_zero, recordsRead_zero, hfirst, ih found, Nat.sub_zero]
      simp only [Nat.zero_le, true_or, true_and]
    · -- the portion is the next credential that satisfies the item
      simp only [getRequestedCredentials_one, le_rfl, true_or, true_and]
      induction found with
      | nil =>
        rw [recordsRead_nil]
        refine ⟨fun _ => ⟨covering_zero counts, fun _ h => absurd h not_mem_nil⟩, fun _ => ?_⟩
        exact (@inOrder_first 1 [] [] _ (Nat.zero_le 1) (.inl rfl)).mpr hnil
      | cons r found ihr =>
        by_cases hr : Comparable toLowercase wallet reading predicateInfo r
        · rw [fetch_one_cons found hr]
          cases hwanted : wanted toLowercase wallet reading predicateInfo interval r with
          | none =>
            rw [filterMap_cons_none hwanted, recordsRead_none hwanted, forall_mem_cons,
              and_iff_right hr]
            exact ihr
          | some entry =>
            rw [filterMap_cons_some hwanted, recordsRead_some hwanted, forall_mem_cons,
              length_cons, Nat.add_sub_cancel, and_iff_right hr, ← ih found]
            exact @inOrder_first 1 [entry] _ _ le_rfl (.inr rfl)
        · constructor
          · intro h
            obtain ⟨page, hpage, -⟩ := inOrder_cons.mp h
            exact absurd (comparable_of_fetch_one hpage) hr
          · rintro ⟨-, hread⟩
            refine absurd (hread r ?_) hr
            cases hwanted : wanted toLowercase wallet reading predicateInfo interval r with
            | none =>
              rw [recordsRead_none hwanted]
              exact mem_cons_self
            | some entry =>
              rw [recordsRead_some hwanted]
              exact mem_cons_self
    · -- the portion is all that is left
      rw [getRequestedCredentials_more hmore, recordsRead_more hmore, fetch_never]
      constructor
      · intro h
        obtain ⟨page, hpage, hle, -⟩ := inOrder_cons.mp h
        obtain ⟨hcomparable, rfl⟩ := collect_comparable.mp hpage
        rw [Nat.sub_eq_zero_of_le hle]
        exact ⟨⟨.inr hle, covering_zero counts⟩, hcomparable⟩
      · rintro ⟨⟨hcount, -⟩, hcomparable⟩
        have hle := hcount.resolve_left (by omega)
        have hpage := collect_comparable.mpr ⟨hcomparable, @rfl _ (found.filterMap
          (wanted toLowercase wallet reading predicateInfo interval))⟩
        rw [hpage, fetch_never_rest 0 hpage]
        have hall := (inOrder_first hle (.inl rfl)).mpr hnil
        rwa [append_nil] at hall

/-! ### Fetches -/

theorem pages_eq_serve {referent : String} {search : SearchForProofRequest}
    (inputs : List (String × ℕ)) {searches : ProofRequestSearch}
    (hsearch : searches.lookup referent = some search) :
    pages toLowercase wallet reading referent inputs searches =
      serve toLowercase wallet reading search.predicateInfo search.interval
        (countsFor referent inputs) search.search := by
  induction inputs generalizing searches search with
  | nil => rfl
  | cons input inputs ih =>
    obtain ⟨item, count⟩ := input
    by_cases hitem : item = referent
    · subst hitem
      have hcounts : countsFor item ((item, count) :: inputs) = count :: countsFor item inputs := by
        simp [countsFor]
      have hstep : (fetchMachine toLowercase wallet reading).step (item, count) searches =
          ((getRequestedCredentials toLowercase wallet reading search.search search.predicateInfo
            search.interval (some count)).1, searches.insert item { search with
              search := (getRequestedCredentials toLowercase wallet reading search.search
                search.predicateInfo search.interval (some count)).2 }) := by
        simp only [fetchMachine, fetchCredentialForProofRequest, hsearch]
      rw [hcounts, serve, pages, hstep]
      dsimp only
      rw [if_pos rfl, ih (AList.lookup_insert searches)]
    · have hcounts : countsFor referent ((item, count) :: inputs) = countsFor referent inputs := by
        simp [countsFor, hitem]
      rw [pages_other inputs searches hitem, hcounts]
      exact ih ((fetch_lookup_other searches hitem).trans hsearch)

/-- Whatever is fetched for the other referents, the portions for one are in order exactly when each
of its counts is at most one or covers what is left, and every record that is read can be
compared. -/
theorem fetches_in_order_iff {searches : ProofRequestSearch} {referent : String}
    {search : SearchForProofRequest} (hsearch : searches.lookup referent = some search)
    (inputs : List (String × ℕ)) :
    InOrder (pages toLowercase wallet reading referent inputs searches)
        (search.search.filterMap
          (wanted toLowercase wallet reading search.predicateInfo search.interval)) ↔
      Covering (search.search.filterMap (wanted toLowercase wallet reading search.predicateInfo
          search.interval)).length (countsFor referent inputs) ∧
        ∀ r ∈ recordsRead toLowercase wallet reading search.predicateInfo search.interval
            (countsFor referent inputs) search.search,
          Comparable toLowercase wallet reading search.predicateInfo r := by
  rw [pages_eq_serve inputs hsearch]
  exact serve_inOrder_iff (countsFor referent inputs) search.search

/-! ### Three credentials -/

/-- A credential for an age, with the number that stands for it. -/
def agedCredential (encoded : String) : Credential where
  schemaId := "schema_id"
  credDefId := "cred_def_id"
  revRegId := none
  values := AList.singleton "age" ⟨encoded, encoded⟩
  signatureIndex := none

def agedRecords : List WalletRecord :=
  [⟨none, "first", some "28", none⟩, ⟨none, "second", some "30", none⟩,
    ⟨none, "third", some "4294967296", none⟩]

/-- A wallet with three credentials; the number of the last one is beyond 32 bits. -/
def agedWallet : CredentialWallet where
  searchIndyRecords _ := .ok (agedRecords.map .ok)
  deserialize value := .ok (agedCredential value)
  same := by
    rintro _ _ _ _ r r' ⟨⟩ ⟨⟩ hr hr' hid
    simp only [agedRecords, map_cons, map_nil, mem_cons, Outcome.ok.injEq,
      not_mem_nil, or_false] at hr hr'
    rcases hr with rfl | rfl | rfl <;> rcases hr' with rfl | rfl | rfl <;>
      first | rfl | exact absurd hid (by decide)

def agePredicate : PredicateInfo := { name := "age", pType := .GE, pValue := 18 }

/-- An attribute and a predicate are searched for. -/
def agedSearches : ProofRequestSearch :=
  (AList.singleton "attr" ⟨agedRecords.map .ok, none, none⟩).insert "pred"
    ⟨agedRecords.map .ok, none, some agePredicate⟩

def agedWanted (predicateInfo : Option PredicateInfo) : List RequestedCredential :=
  (agedRecords.map Outcome.ok).filterMap (wanted id agedWallet insertionReading predicateInfo none)

theorem fetches_in_order_pred :
    InOrder (pages id agedWallet insertionReading "pred"
      [("pred", 1), ("attr", 2), ("pred", 0), ("pred", 1)] agedSearches)
      (agedWanted (some agePredicate)) := by
  have hread : ∀ r ∈ recordsRead id agedWallet insertionReading (some agePredicate) none
      [1, 0, 1] (agedRecords.map .ok),
      Comparable id agedWallet insertionReading (some agePredicate) r := by
    intro r hr
    rcases mem_cons.mp hr with rfl | hr
    · refine ⟨_, rfl, ?_⟩
      rintro _ ⟨⟩
      exact ⟨28, by decide +kernel, by decide⟩
    · obtain rfl := mem_singleton.mp hr
      refine ⟨_, rfl, ?_⟩
      rintro _ ⟨⟩
      exact ⟨30, by decide +kernel, by decide⟩
  have hsearch : agedSearches.lookup "pred" =
      some ⟨agedRecords.map .ok, none, some agePredicate⟩ := rfl
  exact (fetches_in_order_iff hsearch _).mpr ⟨by decide +kernel, hread⟩

/-- The portion for a count of two has three credentials, and the third credential fails the
portion in which it is compared. -/
theorem count_of_two_exceeded :
    ¬ InOrder (pages id agedWallet insertionReading "attr" [("attr", 2)] agedSearches)
        (agedWanted none) ∧
      ¬ InOrder (pages id agedWallet insertionReading "pred" [("pred", 3)] agedSearches)
        (agedWanted (some agePredicate)) := by
  constructor
  · intro h
    have hpages : pages id agedWallet insertionReading "attr" [("attr", 2)] agedSearches =
        [(2, .ok (agedWanted none))] := rfl
    rw [hpages] at h
    obtain ⟨found, hfound, hle⟩ := h.1 _ mem_cons_self
    cases hfound
    exact absurd hle (by decide)
  · intro h
    have hpages : pages id agedWallet insertionReading "pred" [("pred", 3)] agedSearches =
        [(3, .err (errMsg .invalidStructure "Credential attribute value _ is invalid"
          ["4294967296"]))] := by
      decide +kernel
    rw [hpages] at h
    obtain ⟨found, hfound, -⟩ := h.1 _ mem_cons_self
    cases hfound

end IndySdk.Anoncreds
