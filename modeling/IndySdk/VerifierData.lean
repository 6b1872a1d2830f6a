import IndySdk.Numerals
import IndySdk.ProofValidation

/-!
# What the verifier hands to libindy

The maps hold everything that the identifiers of a proof ask for exactly when either no identifier
names a registry entry, or all of them do, one registry never at two times, and the ledger gives
each entry the time that was asked for. An accepted proof is then one that libindy accepts with
complete data.
-/

namespace IndySdk.Vcx.Verifier

open List Option

/-- The identifier asks for the entry of a registry at a time. -/
def CredInfo.Names (credInfo : CredInfo) (revRegId : String) (timestamp : ℕ) : Prop :=
  credInfo.revRegId = some revRegId ∧ credInfo.timestamp = some timestamp

/-- The ledger answers every fetch, for the id that was asked for. -/
structure Fetched (ledger : Ledger) (credentialData : List CredInfo) : Prop where
  schema : ∀ info ∈ credentialData, ∃ value, ledger.schema info.schemaId =
    .ok (info.schemaId, value)
  credDef : ∀ info ∈ credentialData, ∃ value, ledger.credDef info.credDefId =
    .ok (info.credDefId, value)
  revRegDef : ∀ info ∈ credentialData, ∀ revRegId, info.revRegId = some revRegId →
    ∃ value, ledger.revRegDef revRegId = .ok (revRegId, value)
  revReg : ∀ info ∈ credentialData, ∀ revRegId timestamp, info.Names revRegId timestamp →
    ∃ given value, ledger.revReg revRegId timestamp = .ok (revRegId, given, value)

/-- The data holds, under the ids and times that the identifiers give, what the ledger has. -/
structure Complete (ledger : Ledger) (credentialData : List CredInfo) (data : VerifierData) :
    Prop where
  schema : ∀ info ∈ credentialData, ∃ value,
    ledger.schema info.schemaId = .ok (info.schemaId, value) ∧
      Json.member? info.schemaId data.schemas = some value
  credDef : ∀ info ∈ credentialData, ∃ value,
    ledger.credDef info.credDefId = .ok (info.credDefId, value) ∧
      Json.member? info.credDefId data.credentialDefs = some value
  revRegDef : ∀ info ∈ credentialData, ∀ revRegId timestamp, info.Names revRegId timestamp →
    ∃ value, ledger.revRegDef revRegId = .ok (revRegId, value) ∧
      Json.member? revRegId data.revRegDefs = some value
  revReg : ∀ info ∈ credentialData, ∀ revRegId timestamp, info.Names revRegId timestamp →
    ∃ given value entries, ledger.revReg revRegId timestamp = .ok (revRegId, given, value) ∧
      Json.member? revRegId data.revRegs = some (.obj entries) ∧
      Json.member? (toString timestamp) entries = some value

/-- Every identifier names an entry, a registry has one time only, and it is the ledger's. -/
structure OneEntryEach (ledger : Ledger) (credentialData : List CredInfo) : Prop where
  named : ∀ info ∈ credentialData, ∃ revRegId timestamp, info.Names revRegId timestamp
  same : ∀ info ∈ credentialData, ∀ other ∈ credentialData, ∀ revRegId timestamp timestamp',
    info.Names revRegId timestamp → other.Names revRegId timestamp' → timestamp = timestamp'
  given : ∀ info ∈ credentialData, ∀ revRegId timestamp, info.Names revRegId timestamp →
    ∃ value, ledger.revReg revRegId timestamp = .ok (revRegId, timestamp, value)

def NoEntries (credentialData : List CredInfo) : Prop :=
  ∀ info ∈ credentialData, ∀ revRegId timestamp, ¬ info.Names revRegId timestamp

variable {info : CredInfo}

theorem datedRegistry_eq_ok {query : String × ℕ} :
    info.datedRegistry = .ok query ↔ info.Names query.1 query.2 := by
  obtain ⟨revRegId, timestamp⟩ := query
  cases hr : info.revRegId <;> cases ht : info.timestamp <;>
    simp [CredInfo.datedRegistry, CredInfo.registry, CredInfo.Names, required, hr, ht, bind,
      Except.bind, pure, Except.pure]

theorem registry_eq_ok {revRegId : String} :
    info.registry = .ok revRegId ↔ info.revRegId = some revRegId := required_eq_ok

/-! ### The loop -/

section

variable {β : Type} {asked : CredInfo → Except VcxError β} {idOf : β → String}
  {fetch : β → Except VcxError (String × Json)}

/-- What the loop has collected: every asked id has a member, and every member was fetched. -/
structure Collected (asked : CredInfo → Except VcxError β) (idOf : β → String)
    (fetch : β → Except VcxError (String × Json)) (start : Members)
    (credentialData : List CredInfo) (members : Members) : Prop where
  kept : ∀ key, Json.member? key start ≠ none → Json.member? key members ≠ none
  present : ∀ info ∈ credentialData, ∀ query, asked info = .ok query →
    Json.member? (idOf query) members ≠ none
  origin : ∀ key value, Json.member? key members = some value →
    Json.member? key start = some value ∨
      ∃ info ∈ credentialData, ∃ query, asked info = .ok query ∧ idOf query = key ∧
        fetch query = .ok (key, value)

variable {start members : Members} {credentialData : List CredInfo}

theorem Collected.cons_of_present {info : CredInfo} {query : β} (hasked : asked info = .ok query)
    (hpresent : Json.member? (idOf query) start ≠ none)
    (h : Collected asked idOf fetch start credentialData members) :
    Collected asked idOf fetch start (info :: credentialData) members where
  kept := h.kept
  present := by
    intro other hother query' hquery'
    rcases mem_cons.mp hother with rfl | hother
    · rw [hasked] at hquery'
      rw [← Except.ok.inj hquery']
      exact h.kept _ hpresent
    · exact h.present other hother query' hquery'
  origin := by
    intro key value hvalue
    refine (h.origin key value hvalue).imp_right ?_
    rintro ⟨other, hother, hrest⟩
    exact ⟨other, mem_cons_of_mem _ hother, hrest⟩

theorem Collected.cons_of_fetched {info : CredInfo} {query : β} {value : Json}
    (hasked : asked info = .ok query) (hfetch : fetch query = .ok (idOf query, value))
    (h : Collected asked idOf fetch (Json.putMember (idOf query) value start) credentialData
      members) :
    Collected asked idOf fetch start (info :: credentialData) members where
  kept := by
    intro key hkey
    by_cases hid : key = idOf query
    · refine h.kept key ?_
      rw [hid, Json.member?_putMember_self]
      exact some_ne_none value
    · refine h.kept key ?_
      rwa [Json.member?_putMember_of_ne hid]
  present := by
    intro other hother query' hquery'
    rcases mem_cons.mp hother with rfl | hother
    · rw [hasked] at hquery'
      rw [← Except.ok.inj hquery']
      refine h.kept _ ?_
      rw [Json.member?_putMember_self]
      exact some_ne_none value
    · exact h.present other hother query' hquery'
  origin := by
    intro key value' hvalue
    rcases h.origin key value' hvalue with hstart | ⟨other, hother, hrest⟩
    · by_cases hid : key = idOf query
      · rw [hid, Json.member?_putMember_self] at hstart
        refine .inr ⟨info, mem_cons_self, query, hasked, hid.symm, ?_⟩
        rw [hfetch, hid, Option.some.inj hstart]
      · rw [Json.member?_putMember_of_ne hid] at hstart
        exact .inl hstart
    · exact .inr ⟨other, mem_cons_of_mem _ hother, hrest⟩

theorem exists_buildJson {credentialData : List CredInfo}
    (h : ∀ info ∈ credentialData, ∃ query value, asked info = .ok query ∧
      fetch query = .ok (idOf query, value)) (start : Members) :
    ∃ members, buildJson asked idOf fetch start credentialData = .ok members ∧
      Collected asked idOf fetch start credentialData members := by
  induction credentialData generalizing start with
  | nil =>
    refine ⟨start, rfl, fun key hkey => hkey, ?_, fun key value hvalue => .inl hvalue⟩
    intro info hinfo
    exact absurd hinfo not_mem_nil
  | cons info credentialData ih =>
    obtain ⟨query, value, hasked, hfetch⟩ := h info mem_cons_self
    have hrest := fun other hother => h other (mem_cons_of_mem info hother)
    cases hmember : Json.member? (idOf query) start with
    | some old =>
      obtain ⟨members, hbuild, hcollected⟩ := ih hrest start
      refine ⟨members, ?_, hcollected.cons_of_present hasked (by simp [hmember])⟩
      simp only [buildJson, hasked, bind, Except.bind, hmember, isNone_some]
      exact hbuild
    | none =>
      obtain ⟨members, hbuild, hcollected⟩ := ih hrest (Json.putMember (idOf query) value start)
      refine ⟨members, ?_, hcollected.cons_of_fetched hasked hfetch⟩
      simp only [buildJson, hasked, bind, Except.bind, hmember, isNone_none, if_true,
        hfetch]
      exact hbuild

theorem asked_of_buildJson (h : buildJson asked idOf fetch start credentialData = .ok members) :
    ∀ info ∈ credentialData, ∃ query, asked info = .ok query := by
  induction credentialData generalizing start with
  | nil => exact fun info hinfo => absurd hinfo not_mem_nil
  | cons first credentialData ih =>
    rw [buildJson] at h
    cases hasked : asked first with
    | error e => simp [hasked, bind, Except.bind] at h
    | ok query =>
      simp only [hasked, bind, Except.bind] at h
      have hrest : ∀ info ∈ credentialData, ∃ query, asked info = .ok query := by
        split_ifs at h
        · cases hfetch : fetch query with
          | error e => simp [hfetch] at h
          | ok answer =>
            rw [hfetch] at h
            exact ih h
        · exact ih h
      exact forall_mem_cons.mpr ⟨⟨query, hasked⟩, hrest⟩

end

theorem exists_value_of_fetched {asked : CredInfo → Except VcxError String}
    {fetch : String → Except VcxError (String × Json)} {credentialData : List CredInfo}
    (h : ∀ info ∈ credentialData, ∃ query value, asked info = .ok query ∧
      fetch query = .ok (query, value)) (hinfo : info ∈ credentialData) {query : String}
    (hasked : asked info = .ok query) :
    ∃ value, fetch query = .ok (query, value) ∧
      Json.member? query (unwrapOrEmpty (buildJson asked id fetch [] credentialData)) =
        some value := by
  obtain ⟨members, hbuild, hcollected⟩ := @exists_buildJson _ _ id _ _ h []
  obtain ⟨value, hvalue⟩ :=
    ne_none_iff_exists'.mp (hcollected.present info hinfo query hasked)
  rcases hcollected.origin _ value hvalue with hstart | ⟨_, _, query', _, hid, hfetch⟩
  · cases hstart
  · cases hid
    refine ⟨value, hfetch, ?_⟩
    rw [hbuild]
    exact hvalue

/-! ### Complete data -/

section

variable {ledger : Ledger} {credentialData : List CredInfo} {info : CredInfo} {revRegId : String}
  {timestamp : ℕ}

theorem schemas_complete (h : Fetched ledger credentialData) (hinfo : info ∈ credentialData) :
    ∃ value,
    ledger.schema info.schemaId = .ok (info.schemaId, value) ∧
      Json.member? info.schemaId (verifierData ledger credentialData).schemas = some value :=
  exists_value_of_fetched (fun other hother =>
    have ⟨value, hvalue⟩ := h.schema other hother
    ⟨other.schemaId, value, rfl, hvalue⟩) hinfo rfl

theorem credentialDefs_complete (h : Fetched ledger credentialData)
    (hinfo : info ∈ credentialData) : ∃ value,
    ledger.credDef info.credDefId = .ok (info.credDefId, value) ∧
      Json.member? info.credDefId (verifierData ledger credentialData).credentialDefs =
        some value :=
  exists_value_of_fetched (fun other hother =>
    have ⟨value, hvalue⟩ := h.credDef other hother
    ⟨other.credDefId, value, rfl, hvalue⟩) hinfo rfl

theorem revRegDefs_complete (h : Fetched ledger credentialData)
    (hone : OneEntryEach ledger credentialData) (hinfo : info ∈ credentialData)
    (hid : info.revRegId = some revRegId) : ∃ value,
    ledger.revRegDef revRegId = .ok (revRegId, value) ∧
      Json.member? revRegId (verifierData ledger credentialData).revRegDefs = some value :=
  exists_value_of_fetched (fun other hother =>
    have ⟨revRegId', _, hnames⟩ := hone.named other hother
    have ⟨value, hvalue⟩ := h.revRegDef other hother revRegId' hnames.1
    ⟨revRegId', value, registry_eq_ok.mpr hnames.1, hvalue⟩) hinfo (registry_eq_ok.mpr hid)

/-- Where all identifiers name entries, a member of the registry map is the entry of one of them,
under the time that the ledger gave. -/
theorem exists_entry (h : Fetched ledger credentialData)
    (hnamed : ∀ info ∈ credentialData, ∃ revRegId timestamp, info.Names revRegId timestamp)
    (hinfo : info ∈ credentialData) (hnames : info.Names revRegId timestamp) :
    ∃ first ∈ credentialData, ∃ asked given value, first.Names revRegId asked ∧
      ledger.revReg revRegId asked = .ok (revRegId, given, value) ∧
      Json.member? revRegId (verifierData ledger credentialData).revRegs =
        some (.obj [(toString given, value)]) := by
  have hfetched : ∀ info ∈ credentialData, ∃ query value, info.datedRegistry = .ok query ∧
      (ledger.revReg query.1 query.2).map timed = .ok (query.1, value) := by
    intro other hother
    obtain ⟨r, t, hother'⟩ := hnamed other hother
    obtain ⟨given, value, hvalue⟩ := h.revReg other hother r t hother'
    refine ⟨(r, t), .obj [(toString given, value)], datedRegistry_eq_ok.mpr hother', ?_⟩
    rw [hvalue]
    rfl
  obtain ⟨members, hbuild, hcollected⟩ := @exists_buildJson _ _ Prod.fst _ _ hfetched []
  have hasked : info.datedRegistry = .ok (revRegId, timestamp) := datedRegistry_eq_ok.mpr hnames
  obtain ⟨found, hfound⟩ :=
    ne_none_iff_exists'.mp (hcollected.present info hinfo _ hasked)
  rcases hcollected.origin _ found hfound with hstart | ⟨first, hfirst, query, hquery, hid, hget⟩
  · cases hstart
  · obtain ⟨r, asked⟩ := query
    obtain rfl : r = revRegId := hid
    have hfirstNames := datedRegistry_eq_ok.mp hquery
    obtain ⟨given, value, hvalue⟩ := h.revReg first hfirst r asked hfirstNames
    refine ⟨first, hfirst, asked, given, value, hfirstNames, hvalue, ?_⟩
    have hvalues : timed (r, given, value) = (r, found) := by
      rw [hvalue] at hget
      exact Except.ok.inj hget
    rw [verifierData, buildRevRegJson, hbuild]
    change Json.member? r members = _
    rw [hfound, ← (Prod.mk.inj hvalues).2]

theorem revRegs_complete (h : Fetched ledger credentialData)
    (hone : OneEntryEach ledger credentialData) (hinfo : info ∈ credentialData)
    (hnames : info.Names revRegId timestamp) :
    ∃ given value entries, ledger.revReg revRegId timestamp = .ok (revRegId, given, value) ∧
      Json.member? revRegId (verifierData ledger credentialData).revRegs = some (.obj entries) ∧
      Json.member? (toString timestamp) entries = some value := by
  obtain ⟨first, hfirst, asked, given, value, hasked, hvalue, hmember⟩ :=
    exists_entry h hone.named hinfo hnames
  obtain rfl := hone.same first hfirst info hinfo revRegId asked timestamp hasked hnames
  obtain ⟨value', hvalue'⟩ := hone.given first hfirst revRegId asked hasked
  have hgiven : given = asked := by
    rw [hvalue] at hvalue'
    exact congrArg (fun answer => answer.2.1) (Except.ok.inj hvalue')
  refine ⟨given, value, _, hvalue, hmember, ?_⟩
  rw [hgiven, Json.member?_cons, if_pos rfl]

theorem oneEntryEach_of_complete (h : Fetched ledger credentialData)
    (hcomplete : Complete ledger credentialData (verifierData ledger credentialData))
    (hinfo : info ∈ credentialData) (hnames : info.Names revRegId timestamp) :
    OneEntryEach ledger credentialData := by
  have hnamed : ∀ info ∈ credentialData, ∃ revRegId timestamp,
      info.Names revRegId timestamp := by
    obtain ⟨_, _, entries, _, hmember, _⟩ :=
      hcomplete.revReg info hinfo revRegId timestamp hnames
    intro other hother
    cases hbuild : buildRevRegJson ledger credentialData with
    | error e =>
      rw [verifierData, hbuild] at hmember
      cases hmember
    | ok members =>
      obtain ⟨query, hquery⟩ := asked_of_buildJson hbuild other hother
      exact ⟨query.1, query.2, datedRegistry_eq_ok.mp hquery⟩
  -- the time under which an entry is filed is the time of every identifier of its registry
  have hfiled : ∀ other ∈ credentialData, ∀ r t, other.Names r t →
      ∃ first ∈ credentialData, ∃ asked value, first.Names r asked ∧
        ledger.revReg r asked = .ok (r, t, value) ∧
        Json.member? r (verifierData ledger credentialData).revRegs =
          some (.obj [(toString t, value)]) := by
    intro other hother r t hother'
    obtain ⟨first, hfirst, asked, given, value, hasked, hvalue, hmember⟩ :=
      exists_entry h hnamed hother hother'
    obtain ⟨_, value', entries, _, hentries, hentry⟩ := hcomplete.revReg other hother r t hother'
    obtain rfl : entries = [(toString given, value)] := by
      rw [hmember] at hentries
      exact (Json.obj.inj (Option.some.inj hentries)).symm
    have hgiven : toString given = toString t := by
      rw [Json.member?_cons] at hentry
      by_contra hne
      rw [if_neg hne] at hentry
      cases hentry
    obtain rfl := Numerals.repr_injective hgiven
    exact ⟨first, hfirst, asked, value, hasked, hvalue, hmember⟩
  have hsame : ∀ info ∈ credentialData, ∀ other ∈ credentialData, ∀ r t t',
      info.Names r t → other.Names r t' → t = t' := by
    intro info hinfo other hother r t t' hnames hother'
    obtain ⟨_, _, _, _, _, _, hmember⟩ := hfiled info hinfo r t hnames
    obtain ⟨_, _, _, _, _, _, hmember'⟩ := hfiled other hother r t' hother'
    rw [hmember] at hmember'
    have hentries := head_eq_of_cons_eq (Json.obj.inj (Option.some.inj hmember'))
    exact Numerals.repr_injective (Prod.mk.inj hentries).1
  refine ⟨hnamed, hsame, ?_⟩
  intro info hinfo r t hnames
  obtain ⟨first, hfirst, asked, value, hasked, hvalue, _⟩ := hfiled info hinfo r t hnames
  obtain rfl := hsame first hfirst info hinfo r asked t hasked hnames
  exact ⟨value, hvalue⟩

theorem complete_iff (h : Fetched ledger credentialData) :
    Complete ledger credentialData (verifierData ledger credentialData) ↔
      NoEntries credentialData ∨ OneEntryEach ledger credentialData := by
  constructor
  · intro hcomplete
    by_cases hnone : NoEntries credentialData
    · exact .inl hnone
    · simp only [NoEntries, not_forall, not_not] at hnone
      obtain ⟨info, hinfo, revRegId, timestamp, hnames⟩ := hnone
      exact .inr (oneEntryEach_of_complete h hcomplete hinfo hnames)
  · rintro (hnone | hone)
    · exact {
        schema := fun _ => schemas_complete h
        credDef := fun _ => credentialDefs_complete h
        revRegDef := fun info hinfo r t hnames => absurd hnames (hnone info hinfo r t)
        revReg := fun info hinfo r t hnames => absurd hnames (hnone info hinfo r t) }
    · exact {
        schema := fun _ => schemas_complete h
        credDef := fun _ => credentialDefs_complete h
        revRegDef := fun _ hinfo _ _ hnames => revRegDefs_complete h hone hinfo hnames.1
        revReg := fun _ hinfo _ _ hnames => revRegs_complete h hone hinfo hnames }

end

/-! ### The state of the proof -/

structure Proof.Awaiting (p : Proof) : Prop where
  state : p.state = .offerSent
  msgUid : p.msgUid ≠ ""
  proverDid : p.proverDid ≠ ""

/-- The agency has the message for the proof. -/
def Proof.Received (agency : Agency) (p : Proof) (message : ProofMessage) : Prop :=
  ∃ payload thread, p.fetchPayload agency = .ok (payload, thread) ∧
    agency.parseProofPayload payload = .ok message

/-- libindy accepts the message with complete data. -/
def Accepted (ledger : Ledger) (verify : Verify) (p : Proof) (message : ProofMessage) : Prop :=
  ∃ credentialData request data, message.getCredentialInfo ledger.fromStr = .ok credentialData ∧
    p.proofRequestData = some request ∧ Complete ledger credentialData data ∧
    verify request message.libindyProof data = .ok true

/-- libindy reads of the maps what the identifiers ask for, and answers alike on any complete
data. -/
def ReadsIdentifiers (ledger : Ledger) (verify : Verify) (message : ProofMessage) : Prop :=
  ∀ credentialData, message.getCredentialInfo ledger.fromStr = .ok credentialData →
    ∀ request data data', Complete ledger credentialData data →
      Complete ledger credentialData data' →
      verify request message.libindyProof data = verify request message.libindyProof data'

variable {verify : Verify} {p : Proof} {ledger : Ledger} {message : ProofMessage}

theorem conclude_validateProofIndy {proofReqJson proofJson : String} {data : VerifierData} :
    (Proof.conclude (p.validateProofIndy verify proofReqJson proofJson data)).proofState =
        .proofValidated ↔ verify proofReqJson proofJson data = .ok true := by
  rw [Proof.validateProofIndy]
  cases verify proofReqJson proofJson data with
  | error e => simp [Proof.conclude]
  | ok valid => cases valid <;> simp [Proof.conclude]

theorem verifierInput_accept {thread : Option Thread} {input : String × String × VerifierData} :
    (p.accept message thread).verifierInput ledger = .ok input ↔
      ∃ credentialData request, message.getCredentialInfo ledger.fromStr = .ok credentialData ∧
        p.proofRequestData = some request ∧
        input = (request, message.libindyProof, verifierData ledger credentialData) := by
  simp only [Proof.verifierInput, Proof.accept, Proof.buildProofJson, Proof.buildProofReqJson,
    required, bind, Except.bind, Except.map]
  cases message.getCredentialInfo ledger.fromStr with
  | error e => simp
  | ok credentialData =>
    cases p.proofRequestData with
    | none => simp
    | some request => simp [pure, Except.pure, eq_comm]

theorem getProofRequestStatus_validated {agency : Agency} (hp : p.Awaiting)
    (hm : p.Received agency message) :
    (p.getProofRequestStatus ledger agency verify).2.proofState = .proofValidated ↔
      ∃ credentialData request, message.getCredentialInfo ledger.fromStr = .ok credentialData ∧
        p.proofRequestData = some request ∧
        verify request message.libindyProof (verifierData ledger credentialData) = .ok true := by
  obtain ⟨payload, thread, hfetch, hparse⟩ := hm
  have hstate : p.state ≠ .accepted := by simp [hp.state]
  have hready : ¬ (p.state ≠ .offerSent ∨ p.msgUid = "" ∨ p.proverDid = "") := by
    simp [hp.state, hp.msgUid, hp.proverDid]
  rw [Proof.getProofRequestStatus, if_neg hstate, if_neg hready, hfetch]
  simp only [hparse, Proof.proofValidation]
  cases hinput : (p.accept message thread).verifierInput ledger with
  | error e =>
    refine iff_of_false (by simp [Proof.conclude]) ?_
    rintro ⟨credentialData, request, hinfo, hrequest, _⟩
    rw [verifierInput_accept.mpr ⟨credentialData, request, hinfo, hrequest, rfl⟩] at hinput
    cases hinput
  | ok input =>
    obtain ⟨credentialData, request, hinfo, hrequest, rfl⟩ := verifierInput_accept.mp hinput
    simp only
    rw [conclude_validateProofIndy]
    constructor
    · exact fun h => ⟨credentialData, request, hinfo, hrequest, h⟩
    · rintro ⟨credentialData', request', hinfo', hrequest', h⟩
      rw [hinfo] at hinfo'
      rw [hrequest] at hrequest'
      cases hinfo'
      cases hrequest'
      exact h

/-- libindy gets complete data, and a proof is validated exactly when libindy accepts it with such
data. -/
def Exact (ledger : Ledger) (agency : Agency) (p : Proof) (message : ProofMessage) : Prop :=
  (∀ credentialData, message.getCredentialInfo ledger.fromStr = .ok credentialData →
    Complete ledger credentialData (verifierData ledger credentialData)) ∧
  ∀ verify, ReadsIdentifiers ledger verify message →
    ((p.getProofRequestStatus ledger agency verify).2.proofState = .proofValidated ↔
      Accepted ledger verify p message)

theorem validated_iff_accepted {agency : Agency} (hp : p.Awaiting) (hm : p.Received agency message)
    (hverify : ReadsIdentifiers ledger verify message) (hcomplete : ∀ credentialData,
      message.getCredentialInfo ledger.fromStr = .ok credentialData →
        Complete ledger credentialData (verifierData ledger credentialData)) :
    (p.getProofRequestStatus ledger agency verify).2.proofState = .proofValidated ↔
      Accepted ledger verify p message := by
  rw [getProofRequestStatus_validated hp hm]
  constructor
  · rintro ⟨credentialData, request, hinfo, hrequest, h⟩
    exact ⟨credentialData, request, _, hinfo, hrequest, hcomplete _ hinfo, h⟩
  · rintro ⟨credentialData, request, data, hinfo, hrequest, hdata, h⟩
    refine ⟨credentialData, request, hinfo, hrequest, ?_⟩
    rw [hverify credentialData hinfo request _ data (hcomplete _ hinfo) hdata]
    exact h

theorem verifierData_exact_iff {ledger : Ledger} {agency : Agency} {p : Proof}
    {message : ProofMessage} (hp : p.Awaiting) (hm : p.Received agency message)
    (hfetched : ∀ credentialData,
      message.getCredentialInfo ledger.fromStr = .ok credentialData →
        Fetched ledger credentialData) :
    Exact ledger agency p message ↔
      ∀ credentialData, message.getCredentialInfo ledger.fromStr = .ok credentialData →
        NoEntries credentialData ∨ OneEntryEach ledger credentialData := by
  constructor
  · intro hexact credentialData hinfo
    exact (complete_iff (hfetched credentialData hinfo)).mp (hexact.1 credentialData hinfo)
  · intro h
    have hcomplete := fun credentialData hinfo =>
      (complete_iff (hfetched credentialData hinfo)).mpr (h credentialData hinfo)
    exact ⟨hcomplete, fun verify hverify => validated_iff_accepted hp hm hverify hcomplete⟩

def revocable : CredInfo := ⟨"schema", "definition", some "registry", some 7⟩

def lasting : CredInfo := ⟨"schema", "definition", none, none⟩

def CredInfo.toJson (info : CredInfo) : Json :=
  .obj [("schema_id", .str info.schemaId), ("cred_def_id", .str info.credDefId),
    ("rev_reg_id", info.revRegId.elim .null .str),
    ("timestamp", info.timestamp.elim .null (fun t => .int t))]

/-- A ledger with an empty object under every id, made at the time that is asked for. -/
def givingLedger (identifiers : List CredInfo) : Ledger where
  fromStr := fun s => if s = "proof" then
      some (.obj [("identifiers", .arr (identifiers.map CredInfo.toJson))])
    else some (.obj [])
  getCredDefJson := fun id => .ok (id, "\x7b\x7d")
  getSchemaJson := fun id => .ok (id, "\x7b\x7d")
  getRevRegDefJson := fun id => .ok (id, "\x7b\x7d")
  getRevReg := fun id timestamp => .ok (id, "\x7b\x7d", timestamp)

def deliveringAgency : Agency where
  Payload := Unit
  getRefMsg := fun _ _ _ _ _ => .ok ("uid", ())
  decrypt := fun _ _ => .ok ("payload", none)
  parseProofPayload := fun _ => .ok { libindyProof := "proof" }

def requestedProof : Proof where
  msgUid := "request"
  proverDid := "prover"
  state := .offerSent
  proofRequestData := some "request"

/-- A verifier that finds the proof good when it has the entry of the registry. -/
def entryVerifier : Verify := fun _ _ data =>
  match Json.member? "registry" data.revRegs with
  | some entries => .ok ((entries.get "7") = .obj [])
  | none => .ok false

theorem fetched_givingLedger (identifiers credentialData : List CredInfo) :
    Fetched (givingLedger identifiers) credentialData where
  schema := fun _ _ => ⟨.obj [], rfl⟩
  credDef := fun _ _ => ⟨.obj [], rfl⟩
  revRegDef := fun _ _ _ _ => ⟨.obj [], rfl⟩
  revReg := fun _ _ _ timestamp _ => ⟨timestamp, .obj [], rfl⟩

theorem names_revocable {revRegId : String} {timestamp : ℕ}
    (h : revocable.Names revRegId timestamp) : revRegId = "registry" ∧ timestamp = 7 :=
  ⟨(Option.some.inj h.1).symm, (Option.some.inj h.2).symm⟩

theorem verifierData_exact_revocable :
    Exact (givingLedger [revocable]) deliveringAgency requestedProof
      { libindyProof := "proof" } :=
  (verifierData_exact_iff ⟨rfl, by decide, by decide⟩ ⟨"payload", none, rfl, rfl⟩
    (fun credentialData _ => fetched_givingLedger _ credentialData)).mpr (by
    intro credentialData hinfo
    have hread : ProofMessage.getCredentialInfo (givingLedger [revocable]).fromStr
        { libindyProof := "proof" } = .ok [revocable] := rfl
    rw [hread] at hinfo
    obtain rfl := Except.ok.inj hinfo
    refine .inr ⟨?_, ?_, ?_⟩
    · intro info hinfo
      rw [mem_singleton.mp hinfo]
      exact ⟨"registry", 7, rfl, rfl⟩
    · intro info hinfo other hother r t t' hnames hnames'
      rw [mem_singleton.mp hinfo] at hnames
      rw [mem_singleton.mp hother] at hnames'
      rw [(names_revocable hnames).2, (names_revocable hnames').2]
    · exact fun _ _ _ _ _ => ⟨.obj [], rfl⟩)

/-- Next to a credential that cannot be revoked, the registry of one that can is not handed over:
the proof is found invalid although libindy accepts it with complete data. -/
theorem mixedProof_invalid :
    Fetched (givingLedger [revocable, lasting]) [revocable, lasting] ∧
      ¬ Exact (givingLedger [revocable, lasting]) deliveringAgency requestedProof
        { libindyProof := "proof" } ∧
      (requestedProof.getProofRequestStatus (givingLedger [revocable, lasting]) deliveringAgency
        entryVerifier).2.proofState = .proofInvalid ∧
      Accepted (givingLedger [revocable, lasting]) entryVerifier requestedProof
        { libindyProof := "proof" } := by
  have hread : ProofMessage.getCredentialInfo (givingLedger [revocable, lasting]).fromStr
      { libindyProof := "proof" } = .ok [revocable, lasting] := rfl
  refine ⟨fetched_givingLedger _ _, ?_, rfl, ?_⟩
  · intro hexact
    obtain ⟨_, _, entries, _, hmember, _⟩ :=
      (hexact.1 _ hread).revReg revocable mem_cons_self "registry" 7 ⟨rfl, rfl⟩
    cases hmember
  · refine ⟨_, "request", ⟨[("schema", .obj [])], [("definition", .obj [])],
      [("registry", .obj [])], [("registry", .obj [("7", .obj [])])]⟩, hread, rfl, ?_, rfl⟩
    have hmem : ∀ info ∈ [revocable, lasting], info.schemaId = "schema" ∧
        info.credDefId = "definition" := by decide
    have hregistry : ∀ info ∈ [revocable, lasting], ∀ r t, info.Names r t →
        r = "registry" ∧ t = 7 := by
      intro info hinfo r t hnames
      rcases mem_pair.mp hinfo with rfl | rfl
      · exact names_revocable hnames
      · cases hnames.1
    constructor
    · intro info hinfo
      rw [(hmem info hinfo).1]
      exact ⟨.obj [], rfl, rfl⟩
    · intro info hinfo
      rw [(hmem info hinfo).2]
      exact ⟨.obj [], rfl, rfl⟩
    · intro info hinfo r t hnames
      obtain ⟨rfl, rfl⟩ := hregistry info hinfo r t hnames
      exact ⟨.obj [], rfl, rfl⟩
    · intro info hinfo r t hnames
      obtain ⟨rfl, rfl⟩ := hregistry info hinfo r t hnames
      exact ⟨7, .obj [], _, rfl, rfl, rfl⟩

end IndySdk.Vcx.Verifier
