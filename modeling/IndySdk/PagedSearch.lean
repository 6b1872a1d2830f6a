import IndySdk.CredentialSearch
import IndySdk.VerifierCoverage

/-!
# Paged searches and the single call

Fetching the credentials of a referent until a portion is empty gives what the search of the
referent selects, whatever the counts are. The search of a referent is that of its predicate where
there is one, so an attribute of the same name is answered with the predicate's credentials.
-/

namespace IndySdk.Anoncreds

open Outcome List Paging
open Wallet (WalletRecord)

theorem mapEntries_cases {α β : Type} {f : String → α → IndyResult β}
    {entries : List (String × α)} {m : AssocMap String β} (h : mapEntries f entries = .ok m)
    (key : String) :
    ((∀ a, (key, a) ∉ entries) ∧ m.lookup key = none) ∨
      ∃ a b, (key, a) ∈ entries ∧ f key a = .ok b ∧ m.lookup key = some b := by
  induction entries generalizing m with
  | nil =>
    cases h
    exact .inl ⟨fun a => not_mem_nil, rfl⟩
  | cons p entries ih =>
    obtain ⟨b, hb, h⟩ := bind_eq_ok_iff.mp h
    obtain ⟨rest, hrest, h⟩ := bind_eq_ok_iff.mp h
    cases h
    by_cases hkey : key = p.1
    · subst hkey
      exact .inr ⟨p.2, b, mem_cons_self, hb, AList.lookup_insert rest⟩
    · rw [AList.lookup_insert_ne hkey]
      rcases ih hrest with ⟨hnot, hnone⟩ | ⟨a, b', hmem, hb', hlookup⟩
      · refine .inl ⟨fun a hmem => ?_, hnone⟩
        rcases mem_cons.mp hmem with rfl | hrest
        · exact hkey rfl
        · exact hnot a hrest
      · exact .inr ⟨a, b', mem_cons_of_mem p hmem, hb', hlookup⟩

theorem mapEntries_lookup {α β : Type} {f : String → α → IndyResult β} {x : AssocMap String α}
    {m : AssocMap String β} (h : mapEntries f x.toPairs = .ok m) (key : String) :
    (x.lookup key = none ∧ m.lookup key = none) ∨
      ∃ a b, x.lookup key = some a ∧ f key a = .ok b ∧ m.lookup key = some b := by
  rcases mapEntries_cases h key with ⟨hnot, hnone⟩ | ⟨a, b, hmem, hb, hlookup⟩
  · refine .inl ⟨Option.eq_none_iff_forall_not_mem.mpr (fun a ha => ?_), hnone⟩
    exact hnot a (AssocMap.mem_toPairs.mpr ha)
  · exact .inr ⟨a, b, AssocMap.mem_toPairs.mp hmem, hb, hlookup⟩

theorem exists_mapEntries {α β : Type} {f : String → α → IndyResult β}
    {entries : List (String × α)} (h : ∀ p ∈ entries, ∃ b, f p.1 p.2 = .ok b) :
    ∃ m, mapEntries f entries = .ok m := by
  induction entries with
  | nil => exact ⟨∅, rfl⟩
  | cons p entries ih =>
    obtain ⟨b, hb⟩ := h p mem_cons_self
    obtain ⟨m, hm⟩ := ih (fun q hq => h q (mem_cons_of_mem p hq))
    refine ⟨m.insert p.1 b, ?_⟩
    rw [mapEntries, hb, ok_bind, hm, ok_bind]
    rfl

section

variable {toLowercase : String → String} {cl : ClCrypto} {wallet : CredentialWallet}
  {reading : Reading} {interval : Option NonRevocedInterval} {r : IndyResult WalletRecord}

/-! ### Records -/

theorem selectRecord_eq_ok {predicateInfo : Option PredicateInfo} {o : Option RequestedCredential} :
    selectRecord toLowercase wallet reading predicateInfo interval r = .ok o ↔
      ∃ record credential satisfy, r = .ok record ∧
        getCredential wallet record = .ok (record.id, credential) ∧
        satisfies toLowercase reading predicateInfo record.id credential = .ok satisfy ∧
        o = if satisfy then some ⟨getCredentialInfo record.id credential, interval⟩ else none := by
  unfold selectRecord
  constructor
  · intro h
    obtain ⟨record, hrecord, h⟩ := bind_eq_ok_iff.mp h
    obtain ⟨⟨referent, credential⟩, hcredential, h⟩ := bind_eq_ok_iff.mp h
    obtain ⟨satisfy, hsatisfy, h⟩ := bind_eq_ok_iff.mp h
    have hid : referent = record.id := by
      obtain ⟨_, -, hread⟩ := bind_eq_ok_iff.mp hcredential
      obtain ⟨_, -, hread⟩ := bind_eq_ok_iff.mp hread
      cases hread
      rfl
    subst hid
    cases h
    exact ⟨record, credential, satisfy, hrecord, hcredential, hsatisfy, rfl⟩
  · rintro ⟨record, credential, satisfy, rfl, hcredential, hsatisfy, rfl⟩
    rw [ok_bind, hcredential, ok_bind]
    dsimp only
    rw [hsatisfy, ok_bind]
    rfl

theorem getRequestedCredentials_all (found : List (IndyResult WalletRecord))
    (predicateInfo : Option PredicateInfo) (interval : Option NonRevocedInterval) :
    (getRequestedCredentials toLowercase wallet reading found predicateInfo interval none).1 =
      collect (selectRecord toLowercase wallet reading predicateInfo interval) found := by
  unfold getRequestedCredentials
  rw [if_neg (by simp)]
  exact fetch_never 0 found

/-! ### Pages -/

variable (toLowercase wallet reading) in
/-- The counts and the answers of the fetches for one referent. -/
def pages (referent : String) :
    List (String × ℕ) → ProofRequestSearch → List (ℕ × IndyResult (List RequestedCredential))
  | [], _ => []
  | input :: inputs, searches =>
    let fetched := (fetchMachine toLowercase wallet reading).step input searches
    if input.1 = referent then (input.2, fetched.1) :: pages referent inputs fetched.2
    else pages referent inputs fetched.2

/-- The credentials of the pages, one after the other. -/
def credentials (fetched : List (ℕ × IndyResult (List RequestedCredential))) :
    List RequestedCredential :=
  fetched.flatMap (fun page =>
    match page.2 with
    | .ok page => page
    | .err _ | .panic => [])

/-- A page that was asked to hold something is empty. -/
def Exhausted (fetched : List (ℕ × IndyResult (List RequestedCredential))) : Prop :=
  ∃ count, count ≠ 0 ∧ (count, .ok []) ∈ fetched

variable (toLowercase wallet reading) in
/-- Whatever is fetched for whatever referents, no fetch for this one fails, and once its
credentials are exhausted they are the given ones. -/
def FetchesTo (searches : ProofRequestSearch) (referent : String)
    (entry : List RequestedCredential) : Prop :=
  ∀ inputs,
    (∀ page ∈ pages toLowercase wallet reading referent inputs searches, ∃ found,
      page.2 = .ok found) ∧
    (Exhausted (pages toLowercase wallet reading referent inputs searches) →
      credentials (pages toLowercase wallet reading referent inputs searches) = entry)

variable {referent : String} {search : SearchForProofRequest} {searches : ProofRequestSearch}
  {entry : List RequestedCredential}

theorem pages_other {input : String × ℕ} (inputs : List (String × ℕ))
    (searches : ProofRequestSearch) (h : input.1 ≠ referent) :
    pages toLowercase wallet reading referent (input :: inputs) searches =
      pages toLowercase wallet reading referent inputs
        ((fetchMachine toLowercase wallet reading).step input searches).2 := by
  rw [pages]
  exact if_neg h

theorem fetch_lookup_other {input : String × ℕ} (searches : ProofRequestSearch)
    (h : input.1 ≠ referent) :
    ((fetchMachine toLowercase wallet reading).step input searches).2.lookup referent =
      searches.lookup referent := by
  unfold fetchMachine fetchCredentialForProofRequest
  dsimp only
  split
  · rfl
  · exact AList.lookup_insert_ne (Ne.symm h)

theorem fetch_spec {all : List RequestedCredential} (count : ℕ)
    (hsearch : searches.lookup referent = some search)
    (hall : collect (selectRecord toLowercase wallet reading search.predicateInfo
      search.interval) search.search = .ok all) :
    ∃ page rest left,
      ((fetchMachine toLowercase wallet reading).step (referent, count) searches).1 = .ok page ∧
      ((fetchMachine toLowercase wallet reading).step (referent, count) searches).2.lookup
        referent = some { search with search := left } ∧
      collect (selectRecord toLowercase wallet reading search.predicateInfo
        search.interval) left = .ok rest ∧
      all = page ++ rest ∧ (count ≠ 0 → page = [] → rest = []) := by
  unfold fetchMachine fetchCredentialForProofRequest
  dsimp only
  rw [hsearch]
  dsimp only
  unfold getRequestedCredentials
  by_cases hcount : count = 0
  · rw [if_pos (by rw [hcount])]
    exact ⟨[], all, search.search, rfl, AList.lookup_insert searches, hall, rfl,
      fun h => absurd hcount h⟩
  · rw [if_neg (fun h => hcount (Option.some.inj h))]
    obtain ⟨page, rest, hpage, hrest, hsplit⟩ := fetch_collect 0 hall
    refine ⟨page, rest, _, hpage, AList.lookup_insert searches, hrest, hsplit, ?_⟩
    rintro - rfl
    rw [fetch_nil hpage] at hrest
    exact (Outcome.ok.inj hrest).symm

/-- The pages so far, and what is left, make up the selection. -/
theorem pages_spec {all : List RequestedCredential} (inputs : List (String × ℕ))
    (hsearch : searches.lookup referent = some search)
    (hall : collect (selectRecord toLowercase wallet reading search.predicateInfo
      search.interval) search.search = .ok all) :
    ∃ rest, (∀ page ∈ pages toLowercase wallet reading referent inputs searches, ∃ found,
        page.2 = .ok found) ∧
      all = credentials (pages toLowercase wallet reading referent inputs searches) ++ rest ∧
      (Exhausted (pages toLowercase wallet reading referent inputs searches) → rest = []) := by
  induction inputs generalizing searches search all with
  | nil =>
    refine ⟨all, fun page h => absurd h not_mem_nil, rfl, ?_⟩
    rintro ⟨count, -, hmem⟩
    exact absurd hmem not_mem_nil
  | cons input inputs ih =>
    obtain ⟨item, count⟩ := input
    by_cases hitem : item = referent
    · subst hitem
      obtain ⟨page, rest, left, hpage, hlookup, hleft, rfl, hend⟩ := fetch_spec count hsearch hall
      obtain ⟨last, hok, hsplit, hexhausted⟩ := ih hlookup hleft
      have hpages : pages toLowercase wallet reading item ((item, count) :: inputs) searches =
          (count, .ok page) :: pages toLowercase wallet reading item inputs
            ((fetchMachine toLowercase wallet reading).step (item, count) searches).2 := by
        rw [← hpage]
        exact if_pos rfl
      rw [hpages]
      refine ⟨last, ?_, ?_, ?_⟩
      · intro other hother
        rcases mem_cons.mp hother with rfl | hrest
        · exact ⟨page, rfl⟩
        · exact hok other hrest
      · have hfirst : ∀ fetched, credentials ((count, .ok page) :: fetched) =
            page ++ credentials fetched := fun fetched => flatMap_cons
        rw [hfirst, append_assoc, ← hsplit]
      · rintro ⟨asked, hasked, hmem⟩
        rcases mem_cons.mp hmem with hfirst | hrest
        · cases hfirst
          rw [hend hasked rfl] at hsplit
          exact (append_eq_nil_iff.mp hsplit.symm).2
        · exact hexhausted ⟨asked, hasked, hrest⟩
    · rw [pages_other inputs searches hitem]
      exact ih ((fetch_lookup_other searches hitem).trans hsearch) hall

theorem fetch_two (hsearch : searches.lookup referent = some search) :
    ((fetchMachine toLowercase wallet reading).step (referent, 2) searches).1 =
      collect (selectRecord toLowercase wallet reading search.predicateInfo
        search.interval) search.search := by
  unfold fetchMachine fetchCredentialForProofRequest
  dsimp only
  rw [hsearch]
  dsimp only
  unfold getRequestedCredentials
  rw [if_neg (by simp)]
  exact fetch_never 0 search.search

theorem fetchesTo_iff (hsearch : searches.lookup referent = some search) :
    FetchesTo toLowercase wallet reading searches referent entry ↔
      collect (selectRecord toLowercase wallet reading search.predicateInfo
        search.interval) search.search = .ok entry := by
  constructor
  · intro h
    have hpages : pages toLowercase wallet reading referent [(referent, 2), (referent, 2)]
        searches = [(2, ((fetchMachine toLowercase wallet reading).step (referent, 2) searches).1),
          (2, ((fetchMachine toLowercase wallet reading).step (referent, 2)
            ((fetchMachine toLowercase wallet reading).step (referent, 2) searches).2).1)] := by
      simp [pages]
    obtain ⟨hok, hentry⟩ := h [(referent, 2), (referent, 2)]
    rw [hpages] at hok hentry
    obtain ⟨all, hall⟩ := hok _ mem_cons_self
    dsimp only at hall
    rw [fetch_two hsearch] at hall
    obtain ⟨page, rest, left, hpage, hlookup, hleft, hsplit, -⟩ := fetch_spec 2 hsearch hall
    rw [fetch_two hsearch, hall] at hpage
    cases hpage
    have hrest : rest = [] := append_right_eq_self.mp hsplit.symm
    rw [hrest] at hleft
    have hsecond : ((fetchMachine toLowercase wallet reading).step (referent, 2)
        ((fetchMachine toLowercase wallet reading).step (referent, 2) searches).2).1 = .ok [] := by
      rw [fetch_two hlookup]
      exact hleft
    rw [fetch_two hsearch, hall, hsecond] at hentry
    have hcredentials := hentry ⟨2, two_ne_zero, mem_cons_of_mem _ mem_cons_self⟩
    rw [hall, ← hcredentials]
    simp [credentials]
  · intro hall inputs
    obtain ⟨rest, hok, hsplit, hend⟩ := pages_spec inputs hsearch hall
    refine ⟨hok, fun hexhausted => ?_⟩
    rw [hsplit, hend hexhausted, append_nil]

/-! ### The call and the search -/

variable {proofRequest : ProofRequest cl}

variable (toLowercase wallet) in
/-- The records that the wallet finds for an item of a request. -/
def FoundFor (name referent : String) (restrictions : Option Json)
    (found : List (IndyResult WalletRecord)) : Prop :=
  ∃ query, buildQuery toLowercase name referent restrictions none = .ok query ∧
    wallet.searchIndyRecords query = .ok found

variable {found found' : List (IndyResult WalletRecord)}

theorem FoundFor.unique {name : String} {restrictions : Option Json}
    (h : FoundFor toLowercase wallet name referent restrictions found)
    (h' : FoundFor toLowercase wallet name referent restrictions found') : found = found' := by
  obtain ⟨query, hquery, hfound⟩ := h
  obtain ⟨query', hquery', hfound'⟩ := h'
  rw [hquery] at hquery'
  cases hquery'
  rw [hfound] at hfound'
  cases hfound'
  rfl

/-- A record can be read, and satisfies the predicate if there is one. -/
def fits (toLowercase : String → String) (wallet : CredentialWallet) (reading : Reading)
    (predicateInfo : Option PredicateInfo) (r : IndyResult WalletRecord) : Bool :=
  match r with
  | .ok record =>
    match getCredential wallet record with
    | .ok (referent, credential) =>
      satisfies toLowercase reading predicateInfo referent credential = .ok true
    | .err _ | .panic => false
  | .err _ | .panic => false

variable (toLowercase wallet proofRequest) in
/-- When the paged search answers like the single call. Both read a value of the credentials, where
several names are spelled alike, with the same result; and an attribute that shares its referent
with a predicate is fit by the same records, in the same interval, as the predicate. -/
structure Unambiguous (reading reading' : Reading) : Prop where
  readAlike : ∀ {referent predicate found}, proofRequest.requestedPredicates.lookup referent =
      some predicate →
    FoundFor toLowercase wallet predicate.name referent predicate.restrictions found →
      ∀ {record credential}, Outcome.ok record ∈ found →
        getCredential wallet record = .ok (record.id, credential) →
          satisfies toLowercase reading' (some predicate) record.id credential =
            satisfies toLowercase reading (some predicate) record.id credential
  unshared : ∀ {referent attr predicate foundAttr foundPred},
    proofRequest.requestedAttributes.lookup referent = some attr →
    proofRequest.requestedPredicates.lookup referent = some predicate →
    FoundFor toLowercase wallet attr.name referent attr.restrictions foundAttr →
    FoundFor toLowercase wallet predicate.name referent predicate.restrictions foundPred →
      foundAttr = foundPred.filter (fits toLowercase wallet reading' (some predicate)) ∧
        (foundAttr = [] ∨ getNonRevocInterval proofRequest.nonRevoked attr.nonRevoked =
          getNonRevocInterval proofRequest.nonRevoked predicate.nonRevoked)

variable (toLowercase wallet proofRequest) in
/-- The search opened without an extra query gives the entries of a result. -/
def Agrees (reading : Reading) (result : CredentialsForProofRequest) : Prop :=
  ∃ searches, searchCredentialsForProofReq toLowercase wallet proofRequest none = .ok searches ∧
    (∀ referent entry, result.attrs.lookup referent = some entry →
      FetchesTo toLowercase wallet reading searches referent entry) ∧
    ∀ referent entry, result.predicates.lookup referent = some entry →
      FetchesTo toLowercase wallet reading searches referent entry

theorem credentialsForAttribute_eq_ok {attr : AttributeInfo}
    (h : credentialsForAttribute toLowercase wallet reading proofRequest referent attr =
      .ok entry) :
    ∃ found, FoundFor toLowercase wallet attr.name referent attr.restrictions found ∧
      searchForAttribute toLowercase wallet proofRequest none referent attr =
        .ok ⟨found, getNonRevocInterval proofRequest.nonRevoked attr.nonRevoked, none⟩ ∧
      collect (selectRecord toLowercase wallet reading none
        (getNonRevocInterval proofRequest.nonRevoked attr.nonRevoked)) found = .ok entry := by
  obtain ⟨query, hquery, h⟩ := bind_eq_ok_iff.mp h
  obtain ⟨found, hfound, h⟩ := bind_eq_ok_iff.mp h
  rw [getRequestedCredentials_all] at h
  refine ⟨found, ⟨query, hquery, hfound⟩, ?_, h⟩
  rw [searchForAttribute, hquery, ok_bind, hfound, ok_bind]
  rfl

variable {predicate : PredicateInfo} {result : CredentialsForProofRequest}

theorem credentialsForPredicate_eq_ok
    (h : credentialsForPredicate toLowercase wallet reading proofRequest referent predicate =
      .ok entry) :
    ∃ found, FoundFor toLowercase wallet predicate.name referent predicate.restrictions found ∧
      searchForPredicate toLowercase wallet proofRequest none referent predicate =
        .ok ⟨found, getNonRevocInterval proofRequest.nonRevoked predicate.nonRevoked,
          some predicate⟩ ∧
      collect (selectRecord toLowercase wallet reading (some predicate)
        (getNonRevocInterval proofRequest.nonRevoked predicate.nonRevoked)) found = .ok entry := by
  obtain ⟨query, hquery, h⟩ := bind_eq_ok_iff.mp h
  obtain ⟨found, hfound, h⟩ := bind_eq_ok_iff.mp h
  rw [getRequestedCredentials_all] at h
  refine ⟨found, ⟨query, hquery, hfound⟩, ?_, h⟩
  rw [searchForPredicate, hquery, ok_bind, hfound, ok_bind]
  rfl

theorem getCredentialsForProofReq_eq_ok
    (h : getCredentialsForProofReq toLowercase wallet reading proofRequest = .ok result) :
    mapEntries (credentialsForAttribute toLowercase wallet reading proofRequest)
        proofRequest.requestedAttributes.toPairs = .ok result.attrs ∧
      mapEntries (credentialsForPredicate toLowercase wallet reading proofRequest)
        proofRequest.requestedPredicates.toPairs = .ok result.predicates := by
  obtain ⟨attrs, hattrs, h⟩ := bind_eq_ok_iff.mp h
  obtain ⟨predicates, hpredicates, h⟩ := bind_eq_ok_iff.mp h
  cases h
  exact ⟨hattrs, hpredicates⟩

theorem mapEntries_ok_of_mem {α β : Type} {f : String → α → IndyResult β}
    {entries : List (String × α)} {m : AssocMap String β} (h : mapEntries f entries = .ok m)
    {p : String × α} (hp : p ∈ entries) : ∃ b, f p.1 p.2 = .ok b := by
  induction entries generalizing m with
  | nil => exact absurd hp not_mem_nil
  | cons q entries ih =>
    obtain ⟨b, hb, h⟩ := bind_eq_ok_iff.mp h
    obtain ⟨rest, hrest, -⟩ := bind_eq_ok_iff.mp h
    rcases mem_cons.mp hp with rfl | hmem
    · exact ⟨b, hb⟩
    · exact ih hrest hmem

/-- Where the single call succeeds the search can be opened, and its searches are those of the
predicates, and of the attributes that share no referent with one. -/
theorem exists_searches
    (h : getCredentialsForProofReq toLowercase wallet reading proofRequest = .ok result) :
    ∃ searches, searchCredentialsForProofReq toLowercase wallet proofRequest none = .ok searches ∧
      (∀ referent predicate, proofRequest.requestedPredicates.lookup referent = some predicate →
        ∃ search, searchForPredicate toLowercase wallet proofRequest none referent predicate =
          .ok search ∧ searches.lookup referent = some search) ∧
      ∀ referent attr, proofRequest.requestedAttributes.lookup referent = some attr →
        proofRequest.requestedPredicates.lookup referent = none →
          ∃ search, searchForAttribute toLowercase wallet proofRequest none referent attr =
            .ok search ∧ searches.lookup referent = some search := by
  obtain ⟨hattrs, hpredicates⟩ := getCredentialsForProofReq_eq_ok h
  obtain ⟨attrs, hattrs'⟩ := exists_mapEntries
    (f := searchForAttribute toLowercase wallet proofRequest none)
    (by
      intro p hp
      obtain ⟨entry, hentry⟩ := mapEntries_ok_of_mem hattrs hp
      obtain ⟨found, -, hsearch, -⟩ := credentialsForAttribute_eq_ok hentry
      exact ⟨_, hsearch⟩)
  obtain ⟨predicates, hpredicates'⟩ := exists_mapEntries
    (f := searchForPredicate toLowercase wallet proofRequest none)
    (by
      intro p hp
      obtain ⟨entry, hentry⟩ := mapEntries_ok_of_mem hpredicates hp
      obtain ⟨found, -, hsearch, -⟩ := credentialsForPredicate_eq_ok hentry
      exact ⟨_, hsearch⟩)
  refine ⟨predicates ∪ attrs, ?_, ?_, ?_⟩
  · rw [searchCredentialsForProofReq, hattrs', ok_bind, hpredicates', ok_bind]
    rfl
  · intro referent predicate hpredicate
    rcases mapEntries_lookup hpredicates' referent with
      ⟨hnone, -⟩ | ⟨p, search, hp, hsearch, hlookup⟩
    · rw [hnone] at hpredicate
      cases hpredicate
    · rw [hp] at hpredicate
      cases hpredicate
      refine ⟨search, hsearch, ?_⟩
      rw [AList.lookup_union_left (AList.lookup_isSome.mp (by rw [hlookup]; rfl)), hlookup]
  · intro referent attr hattribute hnone
    rcases mapEntries_lookup hattrs' referent with ⟨hno, -⟩ | ⟨a, search, ha, hsearch, hlookup⟩
    · rw [hno] at hattribute
      cases hattribute
    · rw [ha] at hattribute
      cases hattribute
      refine ⟨search, hsearch, ?_⟩
      rcases mapEntries_lookup hpredicates' referent with ⟨-, hnot⟩ | ⟨p, _, hp, -, -⟩
      · rw [AList.lookup_union_right (AList.lookup_eq_none.mp hnot), hlookup]
      · rw [hnone] at hp
        cases hp

/-! ### Which records are selected -/

/-- The credential of a record, as it is reported. -/
def infoOf (wallet : CredentialWallet) (r : IndyResult WalletRecord) : Option CredentialInfo :=
  match r with
  | .ok record =>
    match getCredential wallet record with
    | .ok (referent, credential) => some (getCredentialInfo referent credential)
    | .err _ | .panic => none
  | .err _ | .panic => none

variable {record : WalletRecord} {credential : Credential} {query : Json} {reading' : Reading}

theorem fits_eq {predicateInfo : Option PredicateInfo} {satisfy : Bool}
    (hcredential : getCredential wallet record = .ok (record.id, credential))
    (hsatisfy : satisfies toLowercase reading predicateInfo record.id credential = .ok satisfy) :
    fits toLowercase wallet reading predicateInfo (.ok record) = satisfy := by
  unfold fits
  dsimp only
  rw [hcredential]
  dsimp only
  rw [hsatisfy]
  cases satisfy <;> rfl

theorem infoOf_eq (hcredential : getCredential wallet record = .ok (record.id, credential)) :
    infoOf wallet (.ok record) = some (getCredentialInfo record.id credential) := by
  unfold infoOf
  dsimp only
  rw [hcredential]

theorem collect_eq_filter {predicateInfo : Option PredicateInfo}
    {interval : Option NonRevocedInterval} {found : List (IndyResult WalletRecord)}
    {entry : List RequestedCredential}
    (h : collect (selectRecord toLowercase wallet reading predicateInfo interval) found =
      .ok entry) :
    entry = ((found.filter (fits toLowercase wallet reading predicateInfo)).filterMap
        (infoOf wallet)).map (fun info => ⟨info, interval⟩) ∧
      ∀ r ∈ found, (infoOf wallet r).isSome := by
  obtain ⟨hitems, rfl⟩ := collect_eq_ok.mp h
  clear h
  induction found with
  | nil => exact ⟨rfl, fun r hr => absurd hr not_mem_nil⟩
  | cons r found ih =>
    obtain ⟨hlist, hsome⟩ := ih (fun r' hr' => hitems r' (mem_cons_of_mem r hr'))
    obtain ⟨record, credential, satisfy, rfl, hcredential, hsatisfy, hitem⟩ :=
      selectRecord_eq_ok.mp (hitems r mem_cons_self)
    have hinfo := infoOf_eq hcredential
    have hfits := fits_eq hcredential hsatisfy
    refine ⟨?_, ?_⟩
    · rw [filterMap_cons, hitem, filter_cons, hfits, hlist]
      cases satisfy with
      | true =>
        rw [if_pos rfl, if_pos rfl, filterMap_cons, hinfo]
        rfl
      | false => rw [if_neg Bool.false_ne_true, if_neg Bool.false_ne_true]
    · intro r' hr'
      rcases mem_cons.mp hr' with rfl | hrest
      · rw [hinfo]
        rfl
      · exact hsome r' hrest

theorem filter_fits_attribute
    (h : collect (selectRecord toLowercase wallet reading none interval) found =
      .ok entry) :
    found.filter (fits toLowercase wallet reading none) = found := by
  obtain ⟨hitems, -⟩ := collect_eq_ok.mp h
  rw [filter_eq_self]
  intro r hr
  obtain ⟨record, credential, satisfy, rfl, hcredential, hsatisfy, -⟩ :=
    selectRecord_eq_ok.mp (hitems r hr)
  cases hsatisfy
  exact fits_eq hcredential rfl

theorem infoOf_eq_some {info : CredentialInfo} (h : infoOf wallet r = some info) :
    ∃ record, r = .ok record ∧ info.referent = record.id := by
  unfold infoOf at h
  split at h
  · rename_i record
    split at h
    · rename_i referent credential hcredential
      cases h
      obtain ⟨_, -, hread⟩ := bind_eq_ok_iff.mp hcredential
      obtain ⟨_, -, hread⟩ := bind_eq_ok_iff.mp hread
      cases hread
      exact ⟨record, rfl, rfl⟩
    · cases h
    · cases h
  · cases h
  · cases h

theorem infoOf_injective {query' : Json} (hfound : wallet.searchIndyRecords query = .ok found)
    (hfound' : wallet.searchIndyRecords query' = .ok found') {r' : IndyResult WalletRecord}
    (hr : r ∈ found) (hr' : r' ∈ found') {info : CredentialInfo}
    (hinfo : infoOf wallet r = some info) (hinfo' : infoOf wallet r' = some info) : r = r' := by
  obtain ⟨record, rfl, hid⟩ := infoOf_eq_some hinfo
  obtain ⟨record', rfl, hid'⟩ := infoOf_eq_some hinfo'
  rw [wallet.same hfound hfound' hr hr' (hid.symm.trans hid')]

theorem eq_of_filterMap_eq {α β : Type} {f : α → Option β} {l l' : List α}
    (hsome : ∀ a ∈ l, (f a).isSome) (hsome' : ∀ a ∈ l', (f a).isSome)
    (hinj : ∀ a ∈ l, ∀ a' ∈ l', ∀ b, f a = some b → f a' = some b → a = a')
    (h : l.filterMap f = l'.filterMap f) : l = l' := by
  induction l generalizing l' with
  | nil =>
    cases l' with
    | nil => rfl
    | cons a' l' =>
      obtain ⟨b, hb⟩ := Option.isSome_iff_exists.mp (hsome' a' mem_cons_self)
      rw [filterMap_cons, hb] at h
      cases h
  | cons a l ih =>
    obtain ⟨b, hb⟩ := Option.isSome_iff_exists.mp (hsome a mem_cons_self)
    cases l' with
    | nil =>
      rw [filterMap_cons, hb] at h
      cases h
    | cons a' l' =>
      obtain ⟨b', hb'⟩ := Option.isSome_iff_exists.mp (hsome' a' mem_cons_self)
      rw [filterMap_cons, hb, filterMap_cons, hb'] at h
      obtain ⟨rfl, hrest⟩ := List.cons.inj h
      rw [hinj a mem_cons_self a' mem_cons_self b hb hb']
      congr 1
      refine ih (fun x hx => hsome x (mem_cons_of_mem a hx))
        (fun x hx => hsome' x (mem_cons_of_mem a' hx)) (fun x hx x' hx' => ?_) hrest
      exact hinj x (mem_cons_of_mem a hx) x' (mem_cons_of_mem a' hx')

/-- Two searches that select the same, compared by the records that fit. -/
theorem selections_eq_iff {info info' : Option PredicateInfo}
    {interval' : Option NonRevocedInterval} {query' : Json} {entry' : List RequestedCredential}
    (hfound : wallet.searchIndyRecords query = .ok found)
    (hfound' : wallet.searchIndyRecords query' = .ok found')
    (h : collect (selectRecord toLowercase wallet reading info interval) found = .ok entry)
    (h' : collect (selectRecord toLowercase wallet reading' info' interval') found' =
      .ok entry') :
    entry = entry' ↔ found.filter (fits toLowercase wallet reading info) =
        found'.filter (fits toLowercase wallet reading' info') ∧
      (found.filter (fits toLowercase wallet reading info) = [] ∨ interval = interval') := by
  obtain ⟨rfl, hsome⟩ := collect_eq_filter h
  obtain ⟨rfl, hsome'⟩ := collect_eq_filter h'
  constructor
  · intro heq
    have hinfos := congrArg (List.map RequestedCredential.credInfo) heq
    rw [map_map, map_map] at hinfos
    have hfits := eq_of_filterMap_eq (f := infoOf wallet)
      (fun r hr => hsome r (mem_of_mem_filter hr))
      (fun r hr => hsome' r (mem_of_mem_filter hr))
      (fun r hr r' hr' _ => infoOf_injective hfound hfound' (mem_of_mem_filter hr)
        (mem_of_mem_filter hr'))
      (by simpa [Function.comp_def] using hinfos)
    refine ⟨hfits, ?_⟩
    rw [← hfits] at heq
    cases hlist : found.filter (fits toLowercase wallet reading info) with
    | nil => exact .inl rfl
    | cons r rest =>
      right
      obtain ⟨i, hi⟩ := Option.isSome_iff_exists.mp
        (hsome r (mem_of_mem_filter (hlist ▸ mem_cons_self)))
      rw [hlist, filterMap_cons, hi] at heq
      exact congrArg RequestedCredential.interval (List.cons.inj heq).1
  · rintro ⟨hfits, hempty | rfl⟩
    · rw [← hfits, hempty]
      rfl
    · rw [hfits]

theorem satisfies_eq_of_collect (hfound : wallet.searchIndyRecords query = .ok found)
    (h : collect (selectRecord toLowercase wallet reading (some predicate) interval) found =
      .ok entry)
    (h' : collect (selectRecord toLowercase wallet reading' (some predicate) interval)
      found = .ok entry) (hrecord : Outcome.ok record ∈ found)
    (hcredential : getCredential wallet record = .ok (record.id, credential)) :
    satisfies toLowercase reading' (some predicate) record.id credential =
      satisfies toLowercase reading (some predicate) record.id credential := by
  obtain ⟨hfits, -⟩ := (selections_eq_iff hfound hfound h h').mp rfl
  have hread : ∀ {reading : Reading}, collect
      (selectRecord toLowercase wallet reading (some predicate) interval) found = .ok entry →
        satisfies toLowercase reading (some predicate) record.id credential =
          .ok (fits toLowercase wallet reading (some predicate) (.ok record)) := by
    intro reading hcollect
    obtain ⟨record', credential', satisfy, hrecord', hcredential', hsatisfy, -⟩ :=
      selectRecord_eq_ok.mp ((collect_eq_ok.mp hcollect).1 _ hrecord)
    cases hrecord'
    rw [hcredential] at hcredential'
    cases hcredential'
    rw [hsatisfy, fits_eq hcredential hsatisfy]
  rw [hread h, hread h']
  congr 1
  have hmem := congrArg (fun l => Outcome.ok record ∈ l) hfits
  simp only [mem_filter, hrecord, true_and, eq_iff_iff] at hmem
  exact (Bool.eq_iff_iff.mpr hmem).symm

theorem collect_of_satisfies_eq (h : ∀ {record credential}, Outcome.ok record ∈ found →
      getCredential wallet record = .ok (record.id, credential) →
        satisfies toLowercase reading' (some predicate) record.id credential =
          satisfies toLowercase reading (some predicate) record.id credential)
    (hcollect : collect (selectRecord toLowercase wallet reading (some predicate) interval)
      found = .ok entry) :
    collect (selectRecord toLowercase wallet reading' (some predicate) interval) found =
      .ok entry := by
  rw [← hcollect]
  refine collect_congr (fun r hr => ?_)
  have hitem := (collect_eq_ok.mp hcollect).1 r hr
  obtain ⟨record, credential, satisfy, rfl, hcredential, hsatisfy, ho⟩ :=
    selectRecord_eq_ok.mp hitem
  rw [hitem]
  exact selectRecord_eq_ok.mpr
    ⟨record, credential, satisfy, rfl, hcredential, (h hr hcredential).trans hsatisfy, ho⟩

theorem predicate_fetches (reading' : Reading)
    (hresult : mapEntries (credentialsForPredicate toLowercase wallet reading proofRequest)
      proofRequest.requestedPredicates.toPairs = .ok result.predicates)
    (hsearches : ∀ referent predicate,
      proofRequest.requestedPredicates.lookup referent = some predicate →
        ∃ search, searchForPredicate toLowercase wallet proofRequest none referent predicate =
          .ok search ∧ searches.lookup referent = some search)
    (hpredicate : proofRequest.requestedPredicates.lookup referent = some predicate) :
    ∃ found entry, FoundFor toLowercase wallet predicate.name referent predicate.restrictions
        found ∧ result.predicates.lookup referent = some entry ∧
      collect (selectRecord toLowercase wallet reading (some predicate)
        (getNonRevocInterval proofRequest.nonRevoked predicate.nonRevoked)) found = .ok entry ∧
      ∀ given, FetchesTo toLowercase wallet reading' searches referent given ↔
        collect (selectRecord toLowercase wallet reading' (some predicate)
          (getNonRevocInterval proofRequest.nonRevoked predicate.nonRevoked)) found =
            .ok given := by
  rcases mapEntries_lookup hresult referent with ⟨hnone, -⟩ | ⟨p, entry, hp, hentry, hlookup⟩
  · rw [hnone] at hpredicate
    cases hpredicate
  · rw [hp] at hpredicate
    cases hpredicate
    obtain ⟨found, hfound, hsearch, hcollect⟩ := credentialsForPredicate_eq_ok hentry
    obtain ⟨search, hsearch', hin⟩ := hsearches referent _ hp
    rw [hsearch] at hsearch'
    cases hsearch'
    exact ⟨found, entry, hfound, hlookup, hcollect, fun given => fetchesTo_iff hin⟩

theorem attribute_entry {attr : AttributeInfo}
    (hresult : mapEntries (credentialsForAttribute toLowercase wallet reading proofRequest)
      proofRequest.requestedAttributes.toPairs = .ok result.attrs)
    (hattr : proofRequest.requestedAttributes.lookup referent = some attr) :
    ∃ found entry, FoundFor toLowercase wallet attr.name referent attr.restrictions found ∧
      result.attrs.lookup referent = some entry ∧
      searchForAttribute toLowercase wallet proofRequest none referent attr =
        .ok ⟨found, getNonRevocInterval proofRequest.nonRevoked attr.nonRevoked, none⟩ ∧
      collect (selectRecord toLowercase wallet reading none
        (getNonRevocInterval proofRequest.nonRevoked attr.nonRevoked)) found = .ok entry := by
  rcases mapEntries_lookup hresult referent with ⟨hnone, -⟩ | ⟨a, entry, ha, hentry, hlookup⟩
  · rw [hnone] at hattr
    cases hattr
  · rw [ha] at hattr
    cases hattr
    obtain ⟨found, hfound, hsearch, hcollect⟩ := credentialsForAttribute_eq_ok hentry
    exact ⟨found, entry, hfound, hlookup, hsearch, hcollect⟩

/-- Where the single call answers, in one reading of the credentials, the paged search in another
agrees with it exactly when the request and the readings are unambiguous. -/
theorem paged_search_agrees_iff {reading' : Reading} {result : CredentialsForProofRequest}
    (hget : getCredentialsForProofReq toLowercase wallet reading proofRequest = .ok result) :
    Agrees toLowercase wallet proofRequest reading' result ↔
      Unambiguous toLowercase wallet proofRequest reading reading' := by
  obtain ⟨hattrs, hpredicates⟩ := getCredentialsForProofReq_eq_ok hget
  obtain ⟨searches, hsearches, hofPredicate, hofAttr⟩ := exists_searches hget
  constructor
  · rintro ⟨searches', hsearches', hagreeAttrs, hagreePredicates⟩
    rw [hsearches] at hsearches'
    cases hsearches'
    constructor
    · intro referent predicate found hpredicate hfound record credential hrecord hcredential
      obtain ⟨found', entry, hfound', hlookup, hcollect, hfetches⟩ :=
        predicate_fetches reading' hpredicates hofPredicate hpredicate
      cases hfound.unique hfound'
      obtain ⟨query, -, hquery⟩ := hfound
      exact satisfies_eq_of_collect hquery hcollect
        ((hfetches entry).mp (hagreePredicates referent entry hlookup)) hrecord hcredential
    · intro referent attr predicate foundAttr foundPred hattr hpredicate hfoundAttr hfoundPred
      obtain ⟨found, entry, hfound, -, hcollect, hfetches⟩ :=
        predicate_fetches reading' hpredicates hofPredicate hpredicate
      cases hfoundPred.unique hfound
      obtain ⟨found', entry', hfound', hlookup', -, hcollect'⟩ := attribute_entry hattrs hattr
      cases hfoundAttr.unique hfound'
      obtain ⟨query, -, hquery⟩ := hfoundPred
      obtain ⟨query', -, hquery'⟩ := hfoundAttr
      have hsame := (selections_eq_iff hquery' hquery hcollect'
        ((hfetches entry').mp (hagreeAttrs referent entry' hlookup'))).mp rfl
      rw [filter_fits_attribute hcollect'] at hsame
      exact hsame
  · intro h
    refine ⟨searches, hsearches, ?_, ?_⟩
    · intro referent entry hentry
      rcases mapEntries_lookup hattrs referent with ⟨-, hnone⟩ | ⟨attr, entry', hattr, -, hlookup⟩
      · rw [hnone] at hentry
        cases hentry
      rw [hlookup] at hentry
      cases hentry
      obtain ⟨found, entry, hfound, hlookup', hsearch, hcollect⟩ := attribute_entry hattrs hattr
      rw [hlookup] at hlookup'
      cases hlookup'
      cases hpredicate : proofRequest.requestedPredicates.lookup referent with
      | none =>
        obtain ⟨search, hsearch', hin⟩ := hofAttr referent attr hattr hpredicate
        rw [hsearch] at hsearch'
        cases hsearch'
        exact (fetchesTo_iff hin).mpr hcollect
      | some predicate =>
        obtain ⟨foundPred, entryPred, hfoundPred, -, hcollectPred, hfetches⟩ :=
          predicate_fetches reading' hpredicates hofPredicate hpredicate
        have hread := collect_of_satisfies_eq (h.readAlike hpredicate hfoundPred) hcollectPred
        have hshared := h.unshared hattr hpredicate hfound hfoundPred
        rw [hfetches, hread]
        obtain ⟨query, -, hquery⟩ := hfoundPred
        obtain ⟨query', -, hquery'⟩ := hfound
        rw [← filter_fits_attribute hcollect] at hshared
        rw [(selections_eq_iff hquery' hquery hcollect hread).mpr hshared]
    · intro referent entry hentry
      rcases mapEntries_lookup hpredicates referent with
        ⟨-, hnone⟩ | ⟨predicate, entry', hpredicate, -, hlookup⟩
      · rw [hnone] at hentry
        cases hentry
      rw [hlookup] at hentry
      cases hentry
      obtain ⟨found, entry, hfound, hlookup', hcollect, hfetches⟩ :=
        predicate_fetches reading' hpredicates hofPredicate hpredicate
      rw [hlookup] at hlookup'
      cases hlookup'
      exact (hfetches entry).mpr
        (collect_of_satisfies_eq (h.readAlike hpredicate hfound) hcollect)

end

/-! ### One credential -/

def ageCredential : Credential where
  schemaId := "schema_id"
  credDefId := "cred_def_id"
  revRegId := none
  values := (AList.singleton "age" ⟨"16", "16"⟩).insert "name" ⟨"Alex", "1139481716457488690"⟩
  signatureIndex := none

/-- A wallet with one credential, which fits each query. -/
def ageWallet : CredentialWallet where
  searchIndyRecords _ := .ok [.ok ⟨none, "credential", some "value", none⟩]
  deserialize _ := .ok ageCredential
  same := by
    rintro _ _ _ _ r r' ⟨⟩ ⟨⟩ hr hr' -
    rw [Outcome.ok.inj (mem_singleton.mp hr), Outcome.ok.inj (mem_singleton.mp hr')]

def insertionReading : Reading := fun _ => IterationOrder.inserted

def nameEntry : RequestedCredential :=
  ⟨getCredentialInfo "credential" ageCredential, none⟩

theorem paged_search_agrees_exampleRequest :
    Agrees id ageWallet exampleRequest insertionReading
      ⟨AList.insert "attr1" [nameEntry] ∅, AList.insert "pred1" [] ∅⟩ := by
  have hget : getCredentialsForProofReq id ageWallet insertionReading exampleRequest =
      .ok ⟨AList.insert "attr1" [nameEntry] ∅, AList.insert "pred1" [] ∅⟩ := rfl
  refine (paged_search_agrees_iff hget).mpr ⟨fun _ _ _ _ _ _ => rfl, ?_⟩
  intro referent _ _ _ _ hattr hpredicate
  by_cases hreferent : referent = "attr1"
  · subst hreferent
    cases hpredicate
  · have hnone : exampleRequest.requestedAttributes.lookup referent = none :=
      AList.lookup_insert_ne hreferent
    rw [hnone] at hattr
    cases hattr

/-- The request for a name and for an age, under one referent. -/
def sharedRequest : ProofRequest exampleCl :=
  { exampleRequest with
    requestedPredicates := AList.insert "attr1" { name := "age", pType := .GE, pValue := 18 } ∅ }

/-- The single call gives the credential for the attribute, and the search gives what satisfies the
predicate of the same referent. -/
theorem shared_referent_disagrees :
    getCredentialsForProofReq id ageWallet insertionReading sharedRequest =
        .ok ⟨AList.insert "attr1" [nameEntry] ∅, AList.insert "attr1" [] ∅⟩ ∧
      ¬ Agrees id ageWallet sharedRequest insertionReading
        ⟨AList.insert "attr1" [nameEntry] ∅, AList.insert "attr1" [] ∅⟩ := by
  refine ⟨rfl, ?_⟩
  rintro ⟨searches, ⟨⟩, hattrs, -⟩
  have hfetched := (hattrs "attr1" [nameEntry] rfl [("attr1", 1)]).2
    ⟨1, one_ne_zero, mem_singleton.mpr rfl⟩
  exact absurd hfetched (by decide +kernel)

end IndySdk.Anoncreds
