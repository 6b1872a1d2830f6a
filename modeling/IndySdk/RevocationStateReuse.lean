import IndySdk.Numerals
import IndySdk.RevocationStates
import Mathlib.Data.List.Forall2

/-!
# Reusing revocation states

One state is made for each registry, for the first credential of it and that credential's interval,
and then serves every other credential of the registry. All states are right exactly when it is
right for each of them, lies in each interval, and what was kept from earlier proofs was right.
-/

namespace IndySdk.Vcx.Prover

open List Option
open Verifier (Members)

/-- The registries as they are: the change of one between two times, and the state that libindy
makes for a credential from the content at a time. -/
structure Registries where
  definition : String → String
  change : String → ℤ → ℕ → String
  stateAt : String → String → ℕ → Json

/-- The ledger gives the delta of the range that was asked for, libindy makes a state from the
content of a registry, and updating applies a delta to the base of a state. -/
structure Laws (world : World) (registries : Registries) : Prop where
  definition : ∀ r id json, world.getRevRegDefJson r = .ok (id, json) →
    json = registries.definition r
  delta : ∀ r fromTime toTime id json t,
    world.getRevRegDelta r fromTime toTime = .ok (id, json, t) →
    id = r ∧ json = registries.change r fromTime t
  create : ∀ r c tails t state, world.createRevocationState (registries.definition r)
      (registries.change r (-1) t) c tails = .ok state →
    world.fromStr state = some (registries.stateAt r c t)
  update : ∀ r c tails (base t : ℕ) state state',
    world.fromStr state = some (registries.stateAt r c base) →
    world.updateRevocationState (registries.definition r) state (registries.change r base t) c
      tails = .ok state' →
    world.fromStr state' = some (registries.stateAt r c t)

/-- The kept state is the one libindy makes for the credential at its time. -/
def Right (world : World) (registries : Registries) (r c : String) (state : RevState) : Prop :=
  world.fromStr state.value = some (registries.stateAt r c state.timestamp)

def CredInfo.Within (info : CredInfo) (t : ℕ) : Prop :=
  (∀ start, startOf info.revocationInterval = some start → start ≤ t) ∧
    ∀ stop, endOf info.revocationInterval = some stop → t ≤ stop

/-- The entry has got a time in its interval and the state of its credential at that time. -/
def Served (registries : Registries) (rtn : Members) (info info' : CredInfo) : Prop :=
  info' = { info with timestamp := info'.timestamp } ∧
  ∀ r c tails, info.revocable = some (r, c, tails) →
    ∃ t entries, info'.timestamp = some t ∧ info.Within t ∧
      Json.member? r rtn = some (.obj entries) ∧
      Json.member? (toString t) entries = some (registries.stateAt r c t)

structure Correct (world : World) (registries : Registries) (infos infos' : List CredInfo)
    (rtn : Members) (cache : Cache) : Prop where
  states : List.Forall₂ (Served registries rtn) infos infos'
  kept : ∀ info ∈ infos, ∀ r c tails, info.revocable = some (r, c, tails) →
    ∀ state, cache.lookup r = some state → Right world registries r c state

def CredInfo.names (r : String) (info : CredInfo) : Bool := info.revocable.any (fun n => n.1 = r)

variable {info : CredInfo}

theorem names_iff {r : String} :
    info.names r = true ↔ ∃ c tails, info.revocable = some (r, c, tails) := by
  cases h : info.revocable with
  | none => simp [CredInfo.names, h]
  | some n =>
    obtain ⟨r', c, tails⟩ := n
    simp only [CredInfo.names, h, any_some, decide_eq_true_eq, Option.some.injEq,
      Prod.mk.injEq]
    exact ⟨fun hr => ⟨c, tails, hr, rfl, rfl⟩, fun ⟨_, _, hr, _⟩ => hr⟩

/-! ### One step of the loop -/

/-- What one step of a loop that returns does to its entry and to the progress. -/
inductive Step (world : World) (s : Progress) (info : CredInfo) : CredInfo → Progress → Prop
  | lasting (h : info.revocable = none) : Step world s info info s
  | again {r c tails : String} (h : info.revocable = some (r, c, tails))
      (hr : Json.member? r s.rtn ≠ none) :
      Step world s info
        { info with timestamp := info.timestamp.or (s.timestamps.lookup r) } s
  | first {r c tails : String} {answer : Answer} {value : Json}
      (h : info.revocable = some (r, c, tails)) (hr : Json.member? r s.rtn = none)
      (hstate : revState world r c tails info.revocationInterval (s.cache.lookup r) = .ok answer)
      (hvalue : world.fromStr answer.state = some value) :
      Step world s info { info with timestamp := some answer.timestamp }
        (s.record world r answer value)

theorem cons_eq_ok {built : Built} {infos' : List CredInfo} {rtn : Members} {cache : Cache}
    (h : built.cons info = (.ok (infos', rtn), cache)) :
    ∃ rest, infos' = info :: rest ∧ built = (.ok (rest, rtn), cache) := by
  obtain ⟨result, last⟩ := built
  cases result with
  | error e => cases (Prod.mk.inj h).1
  | ok r =>
    obtain ⟨rest, members⟩ := r
    obtain ⟨hok, rfl⟩ := Prod.mk.inj h
    cases hok
    exact ⟨rest, rfl, rfl⟩

theorem buildRevStates_cons {world : World} {s : Progress} {rest infos' : List CredInfo}
    {rtn : Members} {cache : Cache}
    (h : buildRevStates world s (info :: rest) = (.ok (infos', rtn), cache)) :
    ∃ info' rest' s', infos' = info' :: rest' ∧ Step world s info info' s' ∧
      buildRevStates world s' rest = (.ok (rest', rtn), cache) := by
  rw [buildRevStates] at h
  cases hrev : info.revocable with
  | none =>
    simp only [hrev] at h
    obtain ⟨rest', rfl, hrun⟩ := cons_eq_ok h
    exact ⟨_, rest', s, rfl, .lasting hrev, hrun⟩
  | some n =>
    obtain ⟨r, c, tails⟩ := n
    simp only [hrev] at h
    cases hr : Json.member? r s.rtn with
    | some value =>
      simp only [hr, isNone_some, Bool.false_eq_true, if_false] at h
      obtain ⟨rest', rfl, hrun⟩ := cons_eq_ok h
      exact ⟨_, rest', s, rfl, .again hrev (by simp [hr]), hrun⟩
    | none =>
      simp only [hr, isNone_none, if_true] at h
      cases hstate : revState world r c tails info.revocationInterval (s.cache.lookup r) with
      | error e =>
        simp only [hstate] at h
        cases (Prod.mk.inj h).1
      | ok answer =>
        simp only [hstate] at h
        cases hvalue : world.fromStr answer.state with
        | none =>
          simp only [hvalue] at h
          cases (Prod.mk.inj h).1
        | some value =>
          simp only [hvalue] at h
          obtain ⟨rest', rfl, hrun⟩ := cons_eq_ok h
          exact ⟨_, rest', _, rfl, .first hrev hr hstate hvalue, hrun⟩

/-! ### The answer for one registry -/

/-- The kept state of a registry after its answer. -/
def Answer.kept (world : World) (r : String) (cached : Option RevState) (answer : Answer) :
    Option RevState :=
  match answer.saved with
  | some saved => if world.saves r then some saved.2 else cached
  | none => cached

section

variable {world : World} {registries : Registries} (hlaws : Laws world registries)
  {r c tails : String} {interval : Option NonRevokedInterval} {cached : Option RevState}
  {answer : Answer}

/-- The ledger gives the time for a delta from `start` to the end of the interval. -/
def Gives (world : World) (r : String) (start : Option ℕ) (interval : Option NonRevokedInterval)
    (t : ℕ) : Prop :=
  ∃ id json, world.getRevRegDeltaJson r start (endOf interval) = .ok (id, json, t)

def i64Start (start : Option ℕ) : ℤ := start.elim (-1) asI64

/-- The three ways to a state: it was kept, it is updated, or it is made. -/
inductive Answered (world : World) (registries : Registries) (r c tails : String)
    (interval : Option NonRevokedInterval) : Option RevState → Answer → Prop
  | served {state : RevState} (h : Serves world r interval state) :
      Answered world registries r c tails interval (some state)
        ⟨state.value, state.timestamp, none⟩
  | updated {state : RevState} {t : ℕ} {text : String} (h : ¬ Serves world r interval state)
      (hgives : Gives world r (deltaStart interval state) interval t)
      (hupdate : world.updateRevocationState (registries.definition r) state.value
        (registries.change r (i64Start (deltaStart interval state)) t) c tails = .ok text) :
      Answered world registries r c tails interval (some state)
        ⟨text, t, if state.timestamp < t then some (r, ⟨t, text⟩) else none⟩
  | created {t : ℕ} {text : String} (hgives : Gives world r none interval t)
      (hvalue : world.fromStr text = some (registries.stateAt r c t)) :
      Answered world registries r c tails interval none ⟨text, t, some (r, ⟨t, text⟩)⟩

include hlaws

theorem answered_of_revState (h : revState world r c tails interval cached = .ok answer) :
    Answered world registries r c tails interval cached answer := by
  cases cached with
  | none =>
    rw [revState, createState] at h
    cases hdef : world.getRevRegDefJson r with
    | error e => simp [hdef, bind, Except.bind] at h
    | ok d =>
      cases hdelta : world.getRevRegDeltaJson r none (endOf interval) with
      | error e => simp [hdef, hdelta, bind, Except.bind] at h
      | ok delta =>
        obtain ⟨id, json, t⟩ := delta
        obtain ⟨hid, hjson⟩ := hlaws.delta _ _ _ _ _ _ hdelta
        have hdefinition := hlaws.definition r d.1 d.2 hdef
        cases hcreate : world.createRevocationState d.2 json c tails with
        | error e => simp [hdef, hdelta, hcreate, bind, Except.bind] at h
        | ok text =>
          simp only [hdef, hdelta, hcreate, bind, Except.bind, pure, Except.pure] at h
          rw [← Except.ok.inj h, hid]
          rw [hdefinition, hjson] at hcreate
          exact .created ⟨id, json, hdelta⟩ (hlaws.create r c tails t text hcreate)
  | some state =>
    rw [revState] at h
    by_cases hserves : Serves world r interval state
    · rw [if_pos hserves] at h
      rw [← Except.ok.inj h]
      exact .served hserves
    · rw [if_neg hserves, updateState] at h
      cases hdef : world.getRevRegDefJson r with
      | error e => simp [hdef, bind, Except.bind] at h
      | ok d =>
        cases hdelta : world.getRevRegDeltaJson r (deltaStart interval state)
            (endOf interval) with
        | error e => simp [hdef, hdelta, bind, Except.bind] at h
        | ok delta =>
          obtain ⟨id, json, t⟩ := delta
          obtain ⟨hid, hjson⟩ := hlaws.delta _ _ _ _ _ _ hdelta
          have hdefinition := hlaws.definition r d.1 d.2 hdef
          cases hupdate : world.updateRevocationState d.2 state.value json c tails with
          | error e => simp [hdef, hdelta, hupdate, bind, Except.bind] at h
          | ok text =>
            simp only [hdef, hdelta, hupdate, bind, Except.bind, pure, Except.pure] at h
            rw [← Except.ok.inj h, hid]
            rw [hdefinition, hjson] at hupdate
            exact .updated hserves ⟨id, json, hdelta⟩ hupdate

theorem saved_cases (h : revState world r c tails interval cached = .ok answer) :
    answer.saved = none ∨ ∃ state, answer.saved = some (r, state) := by
  cases answered_of_revState hlaws h with
  | served => exact .inl rfl
  | updated =>
    split_ifs
    · exact .inr ⟨_, rfl⟩
    · exact .inl rfl
  | created => exact .inr ⟨_, rfl⟩

theorem lookup_setRevRegCache_of_ne
    (h : revState world r c tails interval cached = .ok answer) {other : String} (hne : other ≠ r)
    (cache : Cache) : (setRevRegCache world cache answer.saved).lookup other =
      cache.lookup other := by
  rcases saved_cases hlaws h with hnone | ⟨state, hsome⟩
  · rw [hnone]
    rfl
  · rw [hsome, setRevRegCache]
    split_ifs
    · exact AList.lookup_insert_ne hne
    · rfl

theorem lookup_setRevRegCache_self
    (h : revState world r c tails interval cached = .ok answer) (cache : Cache) :
    (setRevRegCache world cache answer.saved).lookup r =
      answer.kept world r (cache.lookup r) := by
  rcases saved_cases hlaws h with hnone | ⟨state, hsome⟩
  · rw [hnone, Answer.kept, hnone]
    rfl
  · rw [hsome, setRevRegCache, Answer.kept, hsome]
    dsimp only
    split_ifs
    · exact AList.lookup_insert _
    · rfl

end

/-! ### Runs of the loop -/

/-- A registry with a state has that state under one time, which is remembered for it. -/
def Progress.Tracked (s : Progress) : Prop :=
  ∀ r, Json.member? r s.rtn ≠ none → ∃ t value,
    Json.member? r s.rtn = some (.obj [(toString t, value)]) ∧ s.timestamps.lookup r = some t

section

variable {world : World} {registries : Registries} {s s' : Progress} {info info' : CredInfo}
  {r : String}

theorem Step.tracked (h : Step world s info info' s') (hs : s.Tracked) : s'.Tracked := by
  cases h with
  | lasting => exact hs
  | again => exact hs
  | @first r c tails answer value hrev hr hstate hvalue =>
    intro other hother
    by_cases hne : other = r
    · subst hne
      exact ⟨answer.timestamp, value, Json.member?_putMember_self _ _ _, AList.lookup_insert _⟩
    · simp only [Progress.record, Json.member?_putMember_of_ne hne] at hother ⊢
      rw [AList.lookup_insert_ne hne]
      exact hs other hother

theorem Step.entry (h : Step world s info info' s') (hs : s.Tracked)
    (hfresh : info.timestamp = none) :
    info' = { info with timestamp := info'.timestamp } ∧
      ∀ r c tails, info.revocable = some (r, c, tails) → ∃ t value,
        info'.timestamp = some t ∧
          Json.member? r s'.rtn = some (.obj [(toString t, value)]) := by
  cases h with
  | lasting hrev =>
    refine ⟨rfl, fun r c tails h => ?_⟩
    rw [hrev] at h
    cases h
  | @again r c tails hrev hr =>
    refine ⟨rfl, fun r' c' tails' h => ?_⟩
    rw [hrev] at h
    cases h
    obtain ⟨t, value, hmember, htime⟩ := hs r hr
    refine ⟨t, value, ?_, hmember⟩
    rw [hfresh, htime]
    rfl
  | @first r c tails answer value hrev hr hstate hvalue =>
    refine ⟨rfl, fun r' c' tails' h => ?_⟩
    rw [hrev] at h
    cases h
    exact ⟨answer.timestamp, value, rfl, Json.member?_putMember_self _ _ _⟩

theorem Step.kept (hlaws : Laws world registries) (h : Step world s info info' s')
    (hr : Json.member? r s.rtn ≠ none) :
    Json.member? r s'.rtn = Json.member? r s.rtn ∧ s'.cache.lookup r = s.cache.lookup r := by
  cases h with
  | lasting => exact ⟨rfl, rfl⟩
  | again => exact ⟨rfl, rfl⟩
  | @first r' c tails answer value hrev hnone hstate hvalue =>
    have hne : r ≠ r' := fun he => hr (he ▸ hnone)
    exact ⟨Json.member?_putMember_of_ne hne _ _, lookup_setRevRegCache_of_ne hlaws hstate hne _⟩

theorem Step.untouched (hlaws : Laws world registries) (h : Step world s info info' s')
    (hnames : info.names r = false) (hr : Json.member? r s.rtn = none) :
    Json.member? r s'.rtn = none ∧ s'.cache.lookup r = s.cache.lookup r := by
  cases h with
  | lasting => exact ⟨hr, rfl⟩
  | again => exact ⟨hr, rfl⟩
  | @first r' c tails answer value hrev hnone hstate hvalue =>
    have hne : r ≠ r' := by
      rintro rfl
      rw [names_iff.mpr ⟨c, tails, hrev⟩] at hnames
      cases hnames
    refine ⟨?_, lookup_setRevRegCache_of_ne hlaws hstate hne _⟩
    simp only [Progress.record]
    rw [Json.member?_putMember_of_ne hne, hr]

variable {infos infos' : List CredInfo} {rtn : Members} {cache : Cache}

theorem run_kept (hlaws : Laws world registries)
    (h : buildRevStates world s infos = (.ok (infos', rtn), cache))
    (hr : Json.member? r s.rtn ≠ none) :
    Json.member? r rtn = Json.member? r s.rtn ∧ cache.lookup r = s.cache.lookup r := by
  induction infos generalizing s infos' with
  | nil =>
    cases h
    exact ⟨rfl, rfl⟩
  | cons info rest ih =>
    obtain ⟨info', rest', next, rfl, hstep, hrun⟩ := buildRevStates_cons h
    obtain ⟨hmember, hlookup⟩ := hstep.kept hlaws hr
    obtain ⟨hmember', hlookup'⟩ := ih hrun (by rwa [hmember])
    exact ⟨hmember'.trans hmember, hlookup'.trans hlookup⟩

theorem run_entries (hlaws : Laws world registries)
    (h : buildRevStates world s infos = (.ok (infos', rtn), cache)) (hs : s.Tracked)
    (hfresh : ∀ info ∈ infos, info.timestamp = none) :
    List.Forall₂ (fun info info' => info' = { info with timestamp := info'.timestamp } ∧
      ∀ r c tails, info.revocable = some (r, c, tails) → ∃ t value, info'.timestamp = some t ∧
        Json.member? r rtn = some (.obj [(toString t, value)])) infos infos' := by
  induction infos generalizing s infos' with
  | nil =>
    cases h
    exact .nil
  | cons info rest ih =>
    obtain ⟨info', rest', next, rfl, hstep, hrun⟩ := buildRevStates_cons h
    obtain ⟨hsame, hentry⟩ := hstep.entry hs (hfresh info mem_cons_self)
    refine .cons ⟨hsame, fun r c tails hrev => ?_⟩
      (ih hrun (hstep.tracked hs)
        (fun other hother => hfresh other (mem_cons_of_mem _ hother)))
    obtain ⟨t, value, htime, hmember⟩ := hentry r c tails hrev
    refine ⟨t, value, htime, ?_⟩
    rw [(run_kept hlaws hrun (by simp [hmember])).1, hmember]

/-- The state of a registry is the answer for its first credential. -/
theorem run_first (hlaws : Laws world registries)
    (h : buildRevStates world s infos = (.ok (infos', rtn), cache)) {first : CredInfo}
    (hfirst : infos.find? (CredInfo.names r) = some first) (hr : Json.member? r s.rtn = none) :
    ∃ c tails answer value, first.revocable = some (r, c, tails) ∧
      revState world r c tails first.revocationInterval (s.cache.lookup r) = .ok answer ∧
      world.fromStr answer.state = some value ∧
      Json.member? r rtn = some (.obj [(toString answer.timestamp, value)]) ∧
      cache.lookup r = answer.kept world r (s.cache.lookup r) := by
  induction infos generalizing s infos' with
  | nil => cases hfirst
  | cons info rest ih =>
    obtain ⟨info', rest', next, rfl, hstep, hrun⟩ := buildRevStates_cons h
    cases hnames : info.names r with
    | false =>
      rw [find?_cons_of_neg (by simp [hnames])] at hfirst
      obtain ⟨hmember, hlookup⟩ := hstep.untouched hlaws hnames hr
      rw [← hlookup]
      exact ih hrun hfirst hmember
    | true =>
      rw [find?_cons_of_pos hnames] at hfirst
      obtain rfl := Option.some.inj hfirst
      obtain ⟨c, tails, hrev⟩ := names_iff.mp hnames
      cases hstep with
      | lasting hnone =>
        rw [hnone] at hrev
        cases hrev
      | again hrev' hr' =>
        rw [hrev'] at hrev
        cases hrev
        exact absurd hr hr'
      | @first _ _ _ answer value hrev' _ hstate hvalue =>
        rw [hrev'] at hrev
        cases hrev
        obtain ⟨hmember, hlookup⟩ := run_kept hlaws hrun (r := r) (by
          simp [Progress.record, Json.member?_putMember_self])
        refine ⟨c, tails, answer, value, hrev', hstate, hvalue, ?_,
          hlookup.trans (lookup_setRevRegCache_self hlaws hstate _)⟩
        rw [hmember]
        exact Json.member?_putMember_self _ _ _

end

/-! ### When the states are right -/

/-- The time that the cache or the ledger gives for the first credential of a registry. -/
def GivenTime (world : World) (r : String) (interval : Option NonRevokedInterval)
    (cached : Option RevState) (t : ℕ) : Prop :=
  match cached with
  | some state =>
    if Serves world r interval state then t = state.timestamp
    else Gives world r (deltaStart interval state) interval t
  | none => Gives world r none interval t

/-- The kept state is right, and the delta starts at its time. -/
def Based (world : World) (registries : Registries) (r c : String)
    (interval : Option NonRevokedInterval) (state : RevState) : Prop :=
  Right world registries r c state ∧ deltaStart interval state = some state.timestamp ∧
    state.timestamp < 2 ^ 63

/-- libindy's update of the kept state happens to be right, as with a delta from the beginning
that brings no change. -/
def UpdatesRight (world : World) (registries : Registries) (r c tails : String)
    (interval : Option NonRevokedInterval) (state : RevState) (t : ℕ) : Prop :=
  ∃ text, world.updateRevocationState (registries.definition r) state.value
      (registries.change r (i64Start (deltaStart interval state)) t) c tails = .ok text ∧
    world.fromStr text = some (registries.stateAt r c t)

/-- `r`, `c` and `tails` are those of the first credential of the registry, and `cached` is the
state that was kept for it. -/
structure Fits (world : World) (registries : Registries) (infos : List CredInfo)
    (r c tails : String) (interval : Option NonRevokedInterval) (cached : Option RevState) :
    Prop where
  inTime : ∀ t, GivenTime world r interval cached t → ∀ info ∈ infos, ∀ c' tails',
    info.revocable = some (r, c', tails') →
      info.Within t ∧ registries.stateAt r c' t = registries.stateAt r c t
  served : ∀ state, cached = some state → Serves world r interval state →
    Right world registries r c state
  updated : ∀ state t, cached = some state → ¬ Serves world r interval state →
    Gives world r (deltaStart interval state) interval t →
    Based world registries r c interval state ∨
      UpdatesRight world registries r c tails interval state t
  kept : ∀ state t, cached = some state → ¬ Serves world r interval state →
    Gives world r (deltaStart interval state) interval t →
    t ≤ state.timestamp ∨ world.saves r = false →
    ∀ info ∈ infos, ∀ c' tails', info.revocable = some (r, c', tails') →
      Right world registries r c' state

theorem Gives.unique {world : World} {r : String} {start : Option ℕ}
    {interval : Option NonRevokedInterval} {t t' : ℕ} (h : Gives world r start interval t)
    (h' : Gives world r start interval t') : t = t' := by
  obtain ⟨id, json, hgives⟩ := h
  obtain ⟨id', json', hgives'⟩ := h'
  rw [hgives] at hgives'
  exact congrArg (fun answer => answer.2.2) (Except.ok.inj hgives')

section

variable {world : World} {registries : Registries}

theorem asI64_of_lt {n : ℕ} (h : n < 2 ^ 63) : asI64 n = n :=
  Int.bmod_eq_of_le_mul_two (by omega) (by omega)

theorem updatesRight_of_based (hlaws : Laws world registries) {r c tails : String}
    {interval : Option NonRevokedInterval} {state : RevState} {t : ℕ} {text : String}
    (h : Based world registries r c interval state)
    (hupdate : world.updateRevocationState (registries.definition r) state.value
      (registries.change r (i64Start (deltaStart interval state)) t) c tails = .ok text) :
    world.fromStr text = some (registries.stateAt r c t) := by
  obtain ⟨hright, hstart, hlt⟩ := h
  rw [hstart, i64Start, elim_some, asI64_of_lt hlt] at hupdate
  exact hlaws.update r c tails state.timestamp t state.value text hright hupdate

variable {infos : List CredInfo} {r c tails : String} {interval : Option NonRevokedInterval}
  {cached : Option RevState} {answer : Answer} {value : Json}

/-- What the answer for a registry has to be for all credentials of it. -/
structure AnswerRight (world : World) (registries : Registries) (infos : List CredInfo)
    (r : String) (cached : Option RevState) (answer : Answer) (value : Json) : Prop where
  state : ∀ info ∈ infos, ∀ c' tails', info.revocable = some (r, c', tails') →
    info.Within answer.timestamp ∧ value = registries.stateAt r c' answer.timestamp
  kept : ∀ info ∈ infos, ∀ c' tails', info.revocable = some (r, c', tails') →
    ∀ state, answer.kept world r cached = some state → Right world registries r c' state

theorem answerRight_iff (hlaws : Laws world registries)
    (hanswer : Answered world registries r c tails interval cached answer)
    (hvalue : world.fromStr answer.state = some value)
    (hmem : ∃ info ∈ infos, info.revocable = some (r, c, tails)) :
    AnswerRight world registries infos r cached answer value ↔
      Fits world registries infos r c tails interval cached := by
  obtain ⟨first, hfirst, hrev⟩ := hmem
  constructor
  · intro hright
    have hstate := (hright.state first hfirst c tails hrev).2
    have hsame : ∀ info ∈ infos, ∀ c' tails', info.revocable = some (r, c', tails') →
        info.Within answer.timestamp ∧
          registries.stateAt r c' answer.timestamp = registries.stateAt r c answer.timestamp := by
      intro info hinfo c' tails' h
      obtain ⟨hwithin, hvalue'⟩ := hright.state info hinfo c' tails' h
      exact ⟨hwithin, hvalue'.symm.trans hstate⟩
    cases hanswer with
    | @served state hserves =>
      refine ⟨?_, ?_, ?_, ?_⟩
      · intro t ht
        rw [GivenTime, if_pos hserves] at ht
        exact ht ▸ hsame
      · rintro _ ⟨⟩ -
        rw [Right, hvalue, hstate]
      · rintro _ t ⟨⟩ hnot
        exact absurd hserves hnot
      · rintro _ t ⟨⟩ hnot
        exact absurd hserves hnot
    | @updated state t text hnot hgives hupdate =>
      refine ⟨?_, ?_, ?_, ?_⟩
      · intro t' ht'
        rw [GivenTime, if_neg hnot] at ht'
        exact ht'.unique hgives ▸ hsame
      · rintro _ ⟨⟩ hserves
        exact absurd hserves hnot
      · rintro _ t' ⟨⟩ - hgives'
        obtain rfl := hgives'.unique hgives
        exact .inr ⟨text, hupdate, by rw [hvalue, hstate]⟩
      · rintro _ t' ⟨⟩ - hgives' hkept info hinfo c' tails' h
        obtain rfl := hgives'.unique hgives
        refine hright.kept info hinfo c' tails' h state ?_
        rcases hkept with hle | hsaves
        · simp [Answer.kept, Nat.not_lt.mpr hle]
        · rw [Answer.kept]
          split <;> simp_all
    | @created t text hgives hcreated =>
      refine ⟨?_, ?_, ?_, ?_⟩
      · exact fun t' ht' => ht'.unique hgives ▸ hsame
      · rintro _ ⟨⟩
      · rintro _ t' ⟨⟩
      · rintro _ t' ⟨⟩
  · intro hfits
    cases hanswer with
    | @served state hserves =>
      have hright := hfits.served state rfl hserves
      rw [Right, hvalue] at hright
      have hstate : ∀ info ∈ infos, ∀ c' tails', info.revocable = some (r, c', tails') →
          info.Within state.timestamp ∧ value = registries.stateAt r c' state.timestamp := by
        intro info hinfo c' tails' h
        obtain ⟨hwithin, hsame⟩ := hfits.inTime state.timestamp (by
          rw [GivenTime, if_pos hserves]) info hinfo c' tails' h
        exact ⟨hwithin, (Option.some.inj hright).trans hsame.symm⟩
      refine ⟨hstate, ?_⟩
      rintro info hinfo c' tails' h _ ⟨⟩
      rw [Right, hvalue, (hstate info hinfo c' tails' h).2]
    | @updated state t text hnot hgives hupdate =>
      have htext : world.fromStr text = some (registries.stateAt r c t) := by
        rcases hfits.updated state t rfl hnot hgives with hbased | ⟨text', hupdate', htext'⟩
        · exact updatesRight_of_based hlaws hbased hupdate
        · rw [hupdate] at hupdate'
          rw [Except.ok.inj hupdate', htext']
      have hstate : ∀ info ∈ infos, ∀ c' tails', info.revocable = some (r, c', tails') →
          info.Within t ∧ value = registries.stateAt r c' t := by
        intro info hinfo c' tails' h
        obtain ⟨hwithin, hsame⟩ := hfits.inTime t (by
          rw [GivenTime, if_neg hnot]
          exact hgives) info hinfo c' tails' h
        rw [htext] at hvalue
        exact ⟨hwithin, (Option.some.inj hvalue).symm.trans hsame.symm⟩
      refine ⟨hstate, ?_⟩
      intro info hinfo c' tails' h last hlast
      by_cases hsaved : state.timestamp < t ∧ world.saves r = true
      · simp only [Answer.kept, hsaved.1, hsaved.2, if_true, Option.some.injEq] at hlast
        rw [← hlast, Right, hvalue, (hstate info hinfo c' tails' h).2]
      · have hcond : t ≤ state.timestamp ∨ world.saves r = false := by
          rw [not_and_or, Nat.not_lt, Bool.not_eq_true] at hsaved
          exact hsaved
        have hlast' : last = state := by
          rcases hcond with hle | hsaves
          · simpa [Answer.kept, Nat.not_lt.mpr hle, eq_comm] using hlast
          · rw [Answer.kept] at hlast
            split at hlast <;> simp_all
        rw [hlast']
        exact hfits.kept state t rfl hnot hgives hcond info hinfo c' tails' h
    | @created t text hgives hcreated =>
      rw [hcreated] at hvalue
      have hstate : ∀ info ∈ infos, ∀ c' tails', info.revocable = some (r, c', tails') →
          info.Within t ∧ value = registries.stateAt r c' t := by
        intro info hinfo c' tails' h
        obtain ⟨hwithin, hsame⟩ := hfits.inTime t hgives info hinfo c' tails' h
        exact ⟨hwithin, (Option.some.inj hvalue).symm.trans hsame.symm⟩
      refine ⟨hstate, ?_⟩
      intro info hinfo c' tails' h last hlast
      rw [Answer.kept] at hlast
      dsimp only at hlast
      split_ifs at hlast
      rw [← Option.some.inj hlast, Right, hcreated, hvalue, (hstate info hinfo c' tails' h).2]

end

section

variable {world : World} {registries : Registries} {infos infos' : List CredInfo} {rtn : Members}
  {cache cache' : Cache}

/-- The states of a call are right when the answer for each registry is right for all of its
credentials. -/
theorem correct_iff_answers (hlaws : Laws world registries)
    (hfresh : ∀ info ∈ infos, info.timestamp = none)
    (h : buildRevStatesJson world cache infos = (.ok (infos', rtn), cache')) :
    Correct world registries infos infos' rtn cache' ↔
      ∀ r first, infos.find? (CredInfo.names r) = some first → ∀ c tails answer value,
        first.revocable = some (r, c, tails) →
        revState world r c tails first.revocationInterval (cache.lookup r) = .ok answer →
        world.fromStr answer.state = some value →
        AnswerRight world registries infos r (cache.lookup r) answer value := by
  have hentries := run_entries hlaws h (fun r hr => absurd rfl hr) hfresh
  constructor
  · intro hcorrect r first hfirst c tails answer value hrev hstate hvalue
    obtain ⟨c₀, tails₀, answer₀, value₀, hrev₀, hstate₀, hvalue₀, hmember, hcache⟩ :=
      run_first hlaws h hfirst rfl
    rw [hrev] at hrev₀
    cases hrev₀
    rw [hstate] at hstate₀
    cases hstate₀
    rw [hvalue] at hvalue₀
    cases hvalue₀
    refine ⟨?_, ?_⟩
    · intro info hinfo c' tails' h'
      obtain ⟨info', -, hserved⟩ := hcorrect.states.exists_of_mem hinfo
      obtain ⟨t, entries, -, hwithin, hentry, hstateAt⟩ := hserved.2 r c' tails' h'
      rw [hmember] at hentry
      cases hentry
      rw [Json.member?_cons] at hstateAt
      split_ifs at hstateAt with htime
      · rw [Numerals.repr_injective htime]
        exact ⟨hwithin, Option.some.inj hstateAt⟩
      · cases hstateAt
    · intro info hinfo c' tails' h' state hkept
      exact hcorrect.kept info hinfo r c' tails' h' state (hcache.trans hkept)
  · intro hanswers
    have hfirst : ∀ info ∈ infos, ∀ r c tails, info.revocable = some (r, c, tails) →
        ∃ t value, Json.member? r rtn = some (.obj [(toString t, value)]) ∧ info.Within t ∧
          value = registries.stateAt r c t ∧
          ∀ state, cache'.lookup r = some state → Right world registries r c state := by
      intro info hinfo r c tails hrev
      obtain ⟨first, hfirst⟩ := isSome_iff_exists.mp
        (find?_isSome.mpr ⟨info, hinfo, names_iff.mpr ⟨c, tails, hrev⟩⟩)
      obtain ⟨c₀, tails₀, answer, value, hrev₀, hstate, hvalue, hmember, hcache⟩ :=
        run_first hlaws h hfirst rfl
      have hright := hanswers r first hfirst c₀ tails₀ answer value hrev₀ hstate hvalue
      obtain ⟨hwithin, hvalueAt⟩ := hright.state info hinfo c tails hrev
      exact ⟨answer.timestamp, value, hmember, hwithin, hvalueAt, fun state hlookup =>
        hright.kept info hinfo c tails hrev state (hcache.symm.trans hlookup)⟩
    refine ⟨((List.forall₂_and_left infos infos').mpr ⟨hfirst, hentries⟩).imp ?_, ?_⟩
    · rintro info info' ⟨hfound, hsame, hentry⟩
      refine ⟨hsame, fun r c tails hrev => ?_⟩
      obtain ⟨t, value, hmember, hwithin, rfl, -⟩ := hfound r c tails hrev
      obtain ⟨t', value', htime, hmember'⟩ := hentry r c tails hrev
      rw [hmember] at hmember'
      have hentries := Json.obj.inj (Option.some.inj hmember')
      have ht := Numerals.repr_injective (Prod.mk.inj (head_eq_of_cons_eq hentries)).1
      refine ⟨t, _, ht ▸ htime, hwithin, hmember, ?_⟩
      rw [Json.member?_cons, if_pos rfl]
    · intro info hinfo r c tails hrev state hstate
      obtain ⟨_, _, _, _, _, hkept⟩ := hfirst info hinfo r c tails hrev
      exact hkept state hstate

/-- A call that returns gives every credential the right state, and keeps right states, exactly
when this holds for the first credential of each registry and fits the others. -/
theorem revStates_correct_iff (hlaws : Laws world registries)
    (hfresh : ∀ info ∈ infos, info.timestamp = none)
    (h : buildRevStatesJson world cache infos = (.ok (infos', rtn), cache')) :
    Correct world registries infos infos' rtn cache' ↔
      ∀ r first, infos.find? (CredInfo.names r) = some first → ∀ c tails,
        first.revocable = some (r, c, tails) →
        Fits world registries infos r c tails first.revocationInterval (cache.lookup r) := by
  rw [correct_iff_answers hlaws hfresh h]
  constructor
  · intro hanswers r first hfirst c tails hrev
    obtain ⟨c₀, tails₀, answer, value, hrev₀, hstate, hvalue, -, -⟩ := run_first hlaws h hfirst rfl
    rw [hrev] at hrev₀
    cases hrev₀
    exact (answerRight_iff hlaws (answered_of_revState hlaws hstate) hvalue
      ⟨first, mem_of_find?_eq_some hfirst, hrev⟩).mp
      (hanswers r first hfirst c tails answer value hrev hstate hvalue)
  · intro hfits r first hfirst c tails answer value hrev hstate hvalue
    exact (answerRight_iff hlaws (answered_of_revState hlaws hstate) hvalue
      ⟨first, mem_of_find?_eq_some hfirst, hrev⟩).mpr
      (hfits r first hfirst c tails hrev)

end

theorem timestamp_of_credInfoOf {proofReq : ProofRequestData} {selected : String × Json}
    (h : credInfoOf proofReq selected = .ok info) : info.timestamp = none := by
  rw [credInfoOf] at h
  split at h
  · cases hinterval : getRevocationInterval selected.1 proofReq with
    | error e => simp [hinterval, bind, Except.bind] at h
    | ok interval =>
      simp only [hinterval, bind, Except.bind, pure, Except.pure] at h
      rw [← Except.ok.inj h]
  · cases h

theorem forall_of_mapM {α β ε : Type} {f : α → Except ε β} {p : β → Prop}
    (hf : ∀ a b, f a = .ok b → p b) {as : List α} {bs : List β} (h : as.mapM f = .ok bs) :
    ∀ b ∈ bs, p b := by
  induction as generalizing bs with
  | nil =>
    cases h
    exact fun b hb => absurd hb not_mem_nil
  | cons a as ih =>
    rw [mapM_cons] at h
    cases hfirst : f a with
    | error e => simp [hfirst, bind, Except.bind] at h
    | ok b =>
      cases hrest : as.mapM f with
      | error e => simp [hfirst, hrest, bind, Except.bind] at h
      | ok rest =>
        simp only [hfirst, hrest, bind, Except.bind, pure, Except.pure] at h
        rw [← Except.ok.inj h]
        exact forall_mem_cons.mpr ⟨hf a b hfirst, ih hrest⟩

theorem fresh_of_credentialDefIdentifiers {fromStr : String → Option Json} {credentials : String}
    {proofReq : ProofRequestData} {infos : List CredInfo}
    (h : credentialDefIdentifiers fromStr credentials proofReq = .ok infos) :
    ∀ info ∈ infos, info.timestamp = none := by
  rw [credentialDefIdentifiers] at h
  cases hread : fromStr credentials with
  | none => simp [hread, Verifier.required, bind, Except.bind] at h
  | some json =>
    simp only [hread, Verifier.required, bind, Except.bind] at h
    cases hattrs : (json.get "attrs").asObject with
    | some attrs =>
      rw [hattrs] at h
      exact forall_of_mapM (fun _ _ => timestamp_of_credInfoOf) h
    | none =>
      rw [hattrs] at h
      cases h
      exact fun info hinfo => absurd hinfo not_mem_nil

/-! ### Credentials of one registry -/

/-- A world in which a state is the number of its credential. -/
def plainWorld : World where
  now := fun _ => 100
  saves := fun _ => true
  fromStr := fun s => some (.str s)
  getRevRegDefJson := fun r => .ok (r, "definition")
  getRevRegDelta := fun r _ _ => .ok (r, "delta", 7)
  createRevocationState := fun _ _ c _ => .ok c
  updateRevocationState := fun _ _ _ c _ => .ok c

def plainRegistries : Registries where
  definition := fun _ => "definition"
  change := fun _ _ _ => "delta"
  stateAt := fun _ c _ => .str c

theorem plainWorld_laws : Laws plainWorld plainRegistries where
  definition := by
    rintro r id json ⟨⟩
    rfl
  delta := by
    rintro r fromTime toTime id json t ⟨⟩
    exact ⟨rfl, rfl⟩
  create := by
    rintro r c tails t state ⟨⟩
    rfl
  update := by
    rintro r c tails base t state state' - ⟨⟩
    rfl

def numbered (c : String) : CredInfo where
  requestedAttr := "attribute " ++ c
  referent := "credential " ++ c
  schemaId := "schema"
  credDefId := "definition"
  revRegId := some "registry"
  credRevId := some c
  revocationInterval := none
  tailsFile := some "tails"
  timestamp := none

def timedAt (t : ℕ) (info : CredInfo) : CredInfo := { info with timestamp := some t }

theorem revStates_correct_single : Correct plainWorld plainRegistries [numbered "1"]
    [timedAt 7 (numbered "1")] [("registry", .obj [("7", .str "1")])]
    (AList.insert "registry" ⟨7, "1"⟩ ∅) := by
  refine (@revStates_correct_iff _ _ _ _ _ ∅ _ plainWorld_laws ?_ rfl).mpr ?_
  · intro info hinfo
    rw [mem_singleton.mp hinfo]
    rfl
  · intro r first hfirst c tails hrev
    obtain rfl := mem_singleton.mp (mem_of_find?_eq_some hfirst)
    cases hrev
    refine ⟨?_, ?_, ?_, ?_⟩
    · rintro t ⟨id, json, hgives⟩ info hinfo c' tails' hrev
      rw [mem_singleton.mp hinfo] at hrev ⊢
      cases hrev
      exact ⟨⟨(fun start h => by cases h), (fun stop h => by cases h)⟩, rfl⟩
    · rintro state ⟨⟩
    · rintro state t ⟨⟩
    · rintro state t ⟨⟩

/-- The second credential of a registry gets the state of the first. -/
theorem sharedState_wrong :
    buildRevStatesJson plainWorld ∅ [numbered "1", numbered "2"] =
        (.ok ([timedAt 7 (numbered "1"), timedAt 7 (numbered "2")],
          [("registry", .obj [("7", .str "1")])]), AList.insert "registry" ⟨7, "1"⟩ ∅) ∧
      ¬ Correct plainWorld plainRegistries [numbered "1", numbered "2"]
        [timedAt 7 (numbered "1"), timedAt 7 (numbered "2")]
        [("registry", .obj [("7", .str "1")])] (AList.insert "registry" ⟨7, "1"⟩ ∅) := by
  refine ⟨rfl, fun h => ?_⟩
  have hright := h.kept (numbered "2") (mem_cons_of_mem _ mem_cons_self) "registry" "2"
    "tails" rfl ⟨7, "1"⟩ (AList.lookup_insert _)
  exact absurd (Json.str.inj (Option.some.inj hright)) (by decide)

end IndySdk.Vcx.Prover
