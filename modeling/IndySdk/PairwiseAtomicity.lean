import IndySdk.PairwiseConnection

/-!
# Calls that fail half way

A call that fails should leave the connection as it was, and an accepted connection should keep its
DIDs and keys until it is deleted. Runs of calls do so exactly when no call fails after the agency
has handed out other keys, every deletion is confirmed, and the answers to an invite agree.
-/

namespace IndySdk.Vcx.Pairwise

open List AList

/-- The DIDs and verkeys of a connection. -/
structure Keys where
  pwDid : String
  pwVerkey : String
  agentDid : String
  agentVk : String
  theirPwDid : String
  theirPwVerkey : String
  deriving DecidableEq

def Connection.keys (c : Connection) : Keys :=
  ⟨c.pwDid, c.pwVerkey, c.agentDid, c.agentVk, c.theirPwDid, c.theirPwVerkey⟩

/-- What has to stay as it was. -/
def Connection.view (c : Connection) : VcxStateType × Keys := (c.state, c.keys)

inductive Operation where
  | connect (options : Except VcxError ConnectionOptions)
  | updateState
  | deleteConnection

structure Call where
  handle : ℕ
  operation : Operation
  world : World

/-- The connections under a sequence of calls; a call answers with its result and the object after
each change that others can see while it runs. -/
def pairwise : Machine Connections Call (Except VcxError ℕ × List Connection) where
  step call connections :=
    match call.operation with
    | .connect options =>
      let (result, connections) := connect call.world connections call.handle options
      ((result, []), connections)
    | .updateState =>
      let (result, trail, connections) := updateState call.world connections call.handle
      ((result, trail), connections)
    | .deleteConnection =>
      let (result, connections) := deleteConnection call.world connections call.handle
      ((result, []), connections)

/-- An accepted connection keeps its keys. -/
def KeysKept (c c' : Connection) : Prop := c.state = .accepted → c'.keys = c.keys

structure CallSound (connections : Connections) (call : Call) : Prop where
  refused : ∀ e, (pairwise.step call connections).1.1 = .error e →
    ((pairwise.step call connections).2.lookup call.handle).map Connection.view =
      (connections.lookup call.handle).map Connection.view
  trail : (pairwise.step call connections).1.2.IsChain KeysKept
  settled : ∀ c c', connections.lookup call.handle = some c →
    (pairwise.step call connections).2.lookup call.handle = some c' → c.state = .accepted →
    c'.state = .accepted ∧ c'.keys = c.keys

/-! ### Conditions -/

section

variable (world : World) (options : ConnectionOptions) (c : Connection)

def PublicDidThere : Prop :=
  options.usePublicDid = some true → ∃ did, world.institutionDid = .ok did

def withPublicDid : Connection :=
  match world.institutionDid with
  | .ok did => if options.usePublicDid = some true then { c with publicDid := some did } else c
  | .error _ => c

def ProfileTaken : Prop :=
  ∀ name, world.institutionName = .ok name → ∃ logoUrl,
    world.institutionLogoUrl = .ok logoUrl ∧
      world.updateData c.pwDid name logoUrl c.publicDid = .ok ()

/-- The connection is in a state to connect, and the agency takes the invite or the acceptance. -/
def InviteTaken : Prop :=
  match c.state with
  | .initialized | .offerSent => ∃ invite, world.sendInvite c.pwDid c.pwVerkey options.phone
      c.agentDid c.agentVk c.publicDid = .ok invite
  | .requestReceived => ∃ details, c.inviteDetail = some details ∧
      world.acceptInvite c.pwDid c.pwVerkey c.agentDid c.agentVk details.senderDetail
        details.senderAgencyDetail details.connReqId (Connection.buildThread details) = .ok ()
  | _ => False

/-- Nothing fails once the agent has its keys. -/
structure RestWorks : Prop where
  publicDid : PublicDidThere world options
  profile : ProfileTaken world (withPublicDid world options c)
  invite : InviteTaken world options (withPublicDid world options c)

/-- The agency gives no keys, or those that the connection has, or nothing fails after that. -/
def ConnectFits : Prop :=
  match world.createKeys c.pwDid c.pwVerkey with
  | .error _ => True
  | .ok (agentDid, agentVk) =>
    (agentDid = c.agentDid ∧ agentVk = c.agentVk) ∨
      RestWorks world options { c with agentDid, agentVk }

end

/-- The first answer cannot be read, or all can be and are of the same DID and verkey. -/
def AnswersAgree : List (Except VcxError SenderDetail) → Prop
  | .ok details :: rest => ∀ r ∈ rest, ∃ details', r = .ok details' ∧
      details'.did = details.did ∧ details'.verkey = details.verkey
  | _ => True

def answersIn (world : World) (messages : List Message) : List (Except VcxError SenderDetail) :=
  (messages.filter Message.isAcceptance).map world.parseAcceptanceDetails

def Fits (connections : Connections) (call : Call) : Prop :=
  ∀ c, connections.lookup call.handle = some c →
    match call.operation with
    | .connect options => ∀ o, options = .ok o → ConnectFits call.world o c
    | .updateState => c.state = .offerSent → ∀ messages,
        call.world.getMessages c.pwDid c.pwVerkey c.agentDid c.agentVk = .ok messages →
          AnswersAgree (answersIn call.world messages)
    | .deleteConnection =>
        call.world.deleteConnection c.pwDid c.pwVerkey c.agentDid c.agentVk = .ok ()

/-! ### Connecting -/

section

variable {world : World} {options : ConnectionOptions} {c : Connection}

@[simp] theorem withPublicDid_keys : (withPublicDid world options c).keys = c.keys := by
  rw [withPublicDid]
  split
  · split_ifs <;> rfl
  · rfl

@[simp] theorem withPublicDid_state : (withPublicDid world options c).state = c.state := by
  rw [withPublicDid]
  split
  · split_ifs <;> rfl
  · rfl

theorem takePublicDid_cases :
    PublicDidThere world options ∧
        c.takePublicDid world options = (.ok 0, withPublicDid world options c) ∨
      ¬ PublicDidThere world options ∧ ∃ e, c.takePublicDid world options = (.error e, c) := by
  by_cases huse : options.usePublicDid = some true
  · cases hdid : world.institutionDid with
    | ok did =>
      refine .inl ⟨fun _ => ⟨did, hdid⟩, ?_⟩
      simp [Connection.takePublicDid, withPublicDid, huse, hdid]
    | error e =>
      refine .inr ⟨fun h => ?_, e, ?_⟩
      · obtain ⟨did, hok⟩ := h huse
        rw [hdid] at hok
        cases hok
      · simp [Connection.takePublicDid, huse, hdid]
  · refine .inl ⟨fun h => absurd h huse, ?_⟩
    rw [Connection.takePublicDid, if_neg huse, withPublicDid]
    split
    · rw [if_neg huse]
    · rfl

theorem sendProfile_cases :
    ProfileTaken world c ∧ c.sendProfile world = (.ok 0, c) ∨
      ¬ ProfileTaken world c ∧ ∃ e, c.sendProfile world = (.error e, c) := by
  cases hname : world.institutionName with
  | error e =>
    refine .inl ⟨fun name h => ?_, by simp [Connection.sendProfile, hname]⟩
    rw [hname] at h
    cases h
  | ok name =>
    cases hlogo : world.institutionLogoUrl with
    | error e =>
      refine .inr ⟨fun h => ?_, e, by simp [Connection.sendProfile, hname, hlogo]⟩
      obtain ⟨logoUrl, hok, -⟩ := h name hname
      rw [hlogo] at hok
      cases hok
    | ok logoUrl =>
      cases hupdate : world.updateData c.pwDid name logoUrl c.publicDid with
      | error e =>
        refine .inr ⟨fun h => ?_, VcxError.extend "Cannot update agent profile" e,
          by simp [Connection.sendProfile, hname, hlogo, hupdate]⟩
        obtain ⟨logoUrl', hok, htaken⟩ := h name hname
        rw [hlogo] at hok
        cases hok
        rw [hupdate] at htaken
        cases htaken
      | ok =>
        refine .inl ⟨fun name' h => ?_, by simp [Connection.sendProfile, hname, hlogo, hupdate]⟩
        rw [hname] at h
        cases h
        exact ⟨logoUrl, hlogo, hupdate⟩

theorem connect_cases :
    (InviteTaken world options c ∧ c.state ≠ .accepted ∧
        ∃ c', c.connect world options = (.ok 0, c') ∧ c'.keys = c.keys) ∨
      ¬ InviteTaken world options c ∧ ∃ e, c.connect world options = (.error e, c) := by
  have hsend : c.state = .initialized ∨ c.state = .offerSent →
      (InviteTaken world options c ∧ c.state ≠ .accepted ∧
          ∃ c', c.connect world options = (.ok 0, c') ∧ c'.keys = c.keys) ∨
        ¬ InviteTaken world options c ∧ ∃ e, c.connect world options = (.error e, c) := by
    intro hstate
    have hinvite : InviteTaken world options c ↔ ∃ invite, world.sendInvite c.pwDid c.pwVerkey
        options.phone c.agentDid c.agentVk c.publicDid = .ok invite := by
      rcases hstate with h | h <;> simp only [InviteTaken, h]
    have hconnect : c.connect world options = c.connectSendInvite world options := by
      rcases hstate with h | h <;> simp only [Connection.connect, h]
    have hne : c.state ≠ .accepted := by rcases hstate with h | h <;> simp [h]
    rw [hinvite, hconnect, Connection.connectSendInvite]
    cases world.sendInvite c.pwDid c.pwVerkey options.phone c.agentDid c.agentVk c.publicDid with
    | ok invite => exact .inl ⟨⟨invite, rfl⟩, hne, _, rfl, rfl⟩
    | error e => exact .inr ⟨(fun ⟨_, h⟩ => by cases h), _, rfl⟩
  cases hstate : c.state with
  | initialized => exact hstate ▸ hsend (.inl hstate)
  | offerSent => exact hstate ▸ hsend (.inr hstate)
  | requestReceived =>
    simp only [InviteTaken, Connection.connect, hstate, Connection.connectAcceptInvite]
    cases c.inviteDetail with
    | none => exact .inr ⟨(fun ⟨_, h, _⟩ => by cases h), _, rfl⟩
    | some details =>
      dsimp only
      cases haccept : world.acceptInvite c.pwDid c.pwVerkey c.agentDid c.agentVk
          details.senderDetail details.senderAgencyDetail details.connReqId
          (Connection.buildThread details) with
      | ok => exact .inl ⟨⟨details, rfl, haccept⟩, by simp, _, rfl, rfl⟩
      | error e =>
        refine .inr ⟨?_, _, rfl⟩
        rintro ⟨details', hsome, hok⟩
        rw [← Option.some.inj hsome, haccept] at hok
        cases hok
  | none | accepted | unfulfilled | expired | revoked =>
    refine .inr ⟨by simp [InviteTaken, hstate], ?_⟩
    simp only [Connection.connect, hstate]
    exact ⟨_, rfl⟩

/-- What follows the creation of the agent's keys. -/
def afterKeys (world : World) (options : ConnectionOptions) (c : Connection) : Changed :=
  andThen (c.updateAgentProfile world options) fun c => c.connect world options

theorem afterKeys_cases :
    (RestWorks world options c ∧ c.state ≠ .accepted ∧
        ∃ c', afterKeys world options c = (.ok 0, c') ∧ c'.keys = c.keys) ∨
      ¬ RestWorks world options c ∧
        ∃ e c', afterKeys world options c = (.error e, c') ∧ c'.view = c.view := by
  have hview : (withPublicDid world options c).view = c.view := by
    rw [Connection.view, Connection.view, withPublicDid_state, withPublicDid_keys]
  rcases @takePublicDid_cases world options c with ⟨hdid, htake⟩ | ⟨hdid, e, htake⟩
  · rcases @sendProfile_cases world (withPublicDid world options c) with
      ⟨hprofile, hsend⟩ | ⟨hprofile, e, hsend⟩
    · rcases @connect_cases world options (withPublicDid world options c) with
        ⟨hinvite, hstate, c', hconnect, hkeys⟩ | ⟨hinvite, e, hconnect⟩
      · refine .inl ⟨⟨hdid, hprofile, hinvite⟩, by rwa [withPublicDid_state] at hstate, c', ?_,
          by rw [hkeys, withPublicDid_keys]⟩
        simp only [afterKeys, Connection.updateAgentProfile, andThen, htake, hsend, hconnect]
      · refine .inr ⟨fun h => hinvite h.invite, e, _, ?_, hview⟩
        simp only [afterKeys, Connection.updateAgentProfile, andThen, htake, hsend, hconnect]
    · refine .inr ⟨fun h => hprofile h.profile, e, _, ?_, hview⟩
      simp only [afterKeys, Connection.updateAgentProfile, andThen, htake, hsend]
  · refine .inr ⟨fun h => hdid h.publicDid, e, c, ?_, rfl⟩
    simp only [afterKeys, Connection.updateAgentProfile, andThen, htake]

/-- The object after the closure of a call, whose changes are kept also when it fails. -/
structure ClosureSound (c : Connection) (r : Changed) : Prop where
  refused : ∀ e, r.1 = .error e → r.2.view = c.view
  settled : c.state = .accepted → r.2.state = .accepted ∧ r.2.keys = c.keys

def connectClosure (world : World) (options : ConnectionOptions) (c : Connection) : Changed :=
  andThen (c.createAgentPairwise world) (afterKeys world options)

theorem connectClosure_sound_iff :
    ClosureSound c (connectClosure world options c) ↔ ConnectFits world options c := by
  rw [connectClosure, Connection.createAgentPairwise, ConnectFits]
  cases world.createKeys c.pwDid c.pwVerkey with
  | error e => exact iff_of_true ⟨fun _ _ => rfl, fun h => ⟨h, rfl⟩⟩ trivial
  | ok keys =>
    obtain ⟨agentDid, agentVk⟩ := keys
    simp only [andThen]
    rcases @afterKeys_cases world options { c with agentDid, agentVk } with
      ⟨hworks, hstate, c', hrun, hkeys⟩ | ⟨hworks, e, c', hrun, hview⟩
    · rw [hrun]
      refine iff_of_true ⟨?_, fun h => absurd h hstate⟩ (.inr hworks)
      rintro e ⟨⟩
    · rw [hrun, or_iff_left hworks]
      have hview' : c'.state = c.state ∧ c'.keys = { c.keys with agentDid, agentVk } :=
        Prod.mk.inj hview
      constructor
      · intro h
        have hsame := (Prod.mk.inj (h.refused e rfl)).2
        rw [hview'.2] at hsame
        exact ⟨congrArg Keys.agentDid hsame, congrArg Keys.agentVk hsame⟩
      · rintro ⟨rfl, rfl⟩
        exact ⟨fun _ _ => hview, fun h => ⟨hview'.1.trans h, hview'.2⟩⟩

end

/-! ### Answers to an invite -/

section

variable {world : World} {c : Connection} {messages : List Message}

/-- The object after each answer that is read, up to the first that is not. -/
def applyAnswers : Connection → List (Except VcxError SenderDetail) → List Connection
  | c, .ok details :: rest =>
    let next := { c with
      theirPwDid := details.did, theirPwVerkey := details.verkey, state := .accepted }
    next :: applyAnswers next rest
  | _, _ => []

theorem acceptAnswers_trail :
    (acceptAnswers world c messages).2 = applyAnswers c (answersIn world messages) := by
  induction messages generalizing c with
  | nil => rfl
  | cons message messages ih =>
    rw [acceptAnswers, answersIn]
    by_cases haccept : message.isAcceptance
    · rw [if_pos haccept, filter_cons_of_pos haccept, map_cons]
      cases hparse : world.parseAcceptanceDetails message with
      | error e => rfl
      | ok details =>
        simp only [applyAnswers]
        rw [ih]
        rfl
    · rw [if_neg haccept, filter_cons_of_neg haccept]
      exact ih

theorem acceptAnswers_error :
    (∃ e, (acceptAnswers world c messages).1 = .error e) ↔
      ∃ e, Except.error e ∈ answersIn world messages := by
  induction messages generalizing c with
  | nil => simp [acceptAnswers, answersIn]
  | cons message messages ih =>
    rw [acceptAnswers, answersIn]
    by_cases haccept : message.isAcceptance
    · rw [if_pos haccept, filter_cons_of_pos haccept, map_cons]
      cases hparse : world.parseAcceptanceDetails message with
      | error e => exact iff_of_true ⟨_, rfl⟩ ⟨e, mem_cons_self⟩
      | ok details =>
        simp only [mem_cons, reduceCtorEq, false_or]
        exact ih
    · rw [if_neg haccept, filter_cons_of_neg haccept]
      exact ih

variable {answers : List (Except VcxError SenderDetail)}

theorem state_of_mem_applyAnswers {c c' : Connection} (h : c' ∈ applyAnswers c answers) :
    c'.state = .accepted := by
  induction answers generalizing c with
  | nil => cases h
  | cons answer rest ih =>
    cases answer with
    | error e => cases h
    | ok details =>
      rcases mem_cons.mp h with rfl | hrest
      · rfl
      · exact ih hrest

theorem isChain_applyAnswers_iff {c : Connection} (hc : c.state = .accepted)
    (hread : ∀ e, Except.error e ∉ answers) :
    (c :: applyAnswers c answers).IsChain KeysKept ↔ ∀ r ∈ answers, ∃ details, r = .ok details ∧
      details.did = c.theirPwDid ∧ details.verkey = c.theirPwVerkey := by
  induction answers generalizing c with
  | nil => simp [applyAnswers]
  | cons answer rest ih =>
    cases answer with
    | error e => exact absurd mem_cons_self (hread e)
    | ok details =>
      have hrest := fun next hnext =>
        @ih next hnext (fun e he => hread e (mem_cons_of_mem _ he))
      rw [applyAnswers, isChain_cons_cons, hrest _ rfl, forall_mem_cons]
      refine ⟨?_, ?_⟩
      · rintro ⟨hkept, hall⟩
        have hkeys := hkept hc
        have hdid : details.did = c.theirPwDid := congrArg Keys.theirPwDid hkeys
        have hverkey : details.verkey = c.theirPwVerkey := congrArg Keys.theirPwVerkey hkeys
        refine ⟨⟨details, rfl, hdid, hverkey⟩, fun r hr => ?_⟩
        rw [← hdid, ← hverkey]
        exact hall r hr
      · rintro ⟨⟨_, ⟨⟩, hdid, hverkey⟩, hall⟩
        refine ⟨fun _ => ?_, fun r hr => ?_⟩
        · simp only [Connection.keys, hdid, hverkey]
        · simp only [hdid, hverkey]
          exact hall r hr

theorem answersAgree_iff {answers : List (Except VcxError SenderDetail)} {c : Connection} :
    AnswersAgree answers ↔
      ((∃ e, Except.error e ∈ answers) → applyAnswers c answers = []) ∧
        (applyAnswers c answers).IsChain KeysKept := by
  cases answers with
  | nil => simp [AnswersAgree, applyAnswers]
  | cons answer rest =>
    cases answer with
    | error e => simp [AnswersAgree, applyAnswers]
    | ok details =>
      constructor
      · intro hagree
        have hread : ∀ e, Except.error e ∉ rest := by
          intro e he
          obtain ⟨_, h, _⟩ := hagree _ he
          cases h
        refine ⟨?_, (isChain_applyAnswers_iff rfl hread).mpr hagree⟩
        rintro ⟨e, he⟩
        rcases mem_cons.mp he with h | h
        · cases h
        · exact absurd h (hread e)
      · rintro ⟨hnone, hchain⟩
        have hread : ∀ e, Except.error e ∉ rest := by
          intro e he
          have hempty := hnone ⟨e, mem_cons_of_mem _ he⟩
          rw [applyAnswers] at hempty
          cases hempty
        exact (isChain_applyAnswers_iff rfl hread).mp hchain

theorem getLast_view_iff {c : Connection} (hc : c.state = .offerSent) :
    ((c :: applyAnswers c answers).getLast (cons_ne_nil _ _)).view = c.view ↔
      applyAnswers c answers = [] := by
  constructor
  · intro hview
    by_contra hne
    rw [getLast_cons hne] at hview
    have hstate := state_of_mem_applyAnswers (getLast_mem hne)
    rw [(Prod.mk.inj hview).1, hc] at hstate
    cases hstate
  · intro hempty
    simp [hempty]

end

/-! ### Calls -/

variable {connections : Connections} {handle : ℕ}

theorem getMut_lookup {c : Connection} (h : connections.lookup handle = some c)
    (f : Connection → Changed) :
    (getMut connections handle f).1 = (f c).1 ∧
      (getMut connections handle f).2.lookup handle = some (f c).2 := by
  rw [getMut, h]
  exact ⟨rfl, lookup_insert _⟩

theorem callSound_of_missing {call : Call} (h : connections.lookup call.handle = none) :
    CallSound connections call := by
  obtain ⟨handle, operation, world⟩ := call
  have hsame : (pairwise.step ⟨handle, operation, world⟩ connections).2 = connections ∧
      (pairwise.step ⟨handle, operation, world⟩ connections).1.2 = [] := by
    cases operation with
    | connect options => cases options <;> simp [pairwise, connect, getMut, h]
    | updateState => simp [pairwise, updateState, h]
    | deleteConnection => simp [pairwise, deleteConnection, getMut, release, h]
  refine ⟨fun _ _ => ?_, ?_, ?_⟩
  · rw [hsame.1]
  · rw [hsame.2]
    exact .nil
  · intro c c' hc
    rw [h] at hc
    cases hc

section

variable {connections : Connections} {handle : ℕ} {world : World} {c : Connection}

theorem connect_sound_iff (h : connections.lookup handle = some c)
    (options : Except VcxError ConnectionOptions) :
    CallSound connections ⟨handle, .connect options, world⟩ ↔
      ∀ o, options = .ok o → ConnectFits world o c := by
  cases options with
  | error e =>
    refine iff_of_true ⟨fun _ _ => rfl, .nil, ?_⟩ (by simp)
    intro c₁ c₂ hc₁ hc₂ hstate
    have hsame : c₁ = c₂ := Option.some.inj (hc₁.symm.trans hc₂)
    exact hsame ▸ ⟨hstate, rfl⟩
  | ok o =>
    obtain ⟨hresult, hlookup⟩ := getMut_lookup h (connectClosure world o)
    simp only [Except.ok.injEq, forall_eq']
    rw [← connectClosure_sound_iff]
    constructor
    · intro hsound
      refine ⟨fun e he => ?_, fun hstate => hsound.settled c _ h hlookup hstate⟩
      have hview := hsound.refused e (hresult.trans he)
      rw [h] at hview
      change ((getMut connections handle (connectClosure world o)).2.lookup handle).map _ = _
        at hview
      rw [hlookup] at hview
      exact Option.some.inj hview
    · intro hclosure
      refine ⟨fun e he => ?_, .nil, ?_⟩
      · change ((getMut connections handle (connectClosure world o)).2.lookup handle).map _ = _
        rw [hlookup, h]
        exact congrArg some (hclosure.refused e (hresult.symm.trans he))
      · intro c₁ c₂ hc₁ hc₂ hstate
        obtain rfl := Option.some.inj (h.symm.trans hc₁)
        obtain rfl := Option.some.inj (hlookup.symm.trans hc₂)
        exact hclosure.settled hstate

theorem deleteConnection_eq (h : connections.lookup handle = some c) :
    pairwise.step ⟨handle, .deleteConnection, world⟩ connections =
      ((match world.deleteConnection c.pwDid c.pwVerkey c.agentDid c.agentVk with
        | .ok () => .ok 0
        | .error _ => .error ⟨deleteConnectionKind, "", []⟩, []),
        (connections.insert handle (c.deleteConnection world).2).erase handle) := by
  simp only [pairwise, deleteConnection, getMut, h, release, lookup_insert]
  rw [Connection.deleteConnection]
  cases world.deleteConnection c.pwDid c.pwVerkey c.agentDid c.agentVk <;> rfl

theorem deleteConnection_sound_iff (h : connections.lookup handle = some c) :
    CallSound connections ⟨handle, .deleteConnection, world⟩ ↔
      world.deleteConnection c.pwDid c.pwVerkey c.agentDid c.agentVk = .ok () := by
  have hstep := @deleteConnection_eq connections handle world c h
  have hgone : (pairwise.step ⟨handle, .deleteConnection, world⟩ connections).2.lookup handle =
      none := by
    rw [hstep]
    exact lookup_erase handle _
  cases hdelete : world.deleteConnection c.pwDid c.pwVerkey c.agentDid c.agentVk with
  | error e =>
    refine iff_of_false (fun hsound => ?_) (by simp)
    have hview := hsound.refused ⟨deleteConnectionKind, "", []⟩ (by rw [hstep, hdelete])
    rw [hgone, h] at hview
    cases hview
  | ok =>
    refine iff_of_true ⟨fun e he => ?_, by rw [hstep]; exact .nil, ?_⟩ rfl
    · rw [hstep, hdelete] at he
      cases he
    · intro c₁ c₂ _ hc₂
      rw [hgone] at hc₂
      cases hc₂

theorem callSound_of_unchanged {call : Call}
    (hsame : (pairwise.step call connections).2 = connections)
    (htrail : (pairwise.step call connections).1.2 = []) : CallSound connections call := by
  refine ⟨fun _ _ => by rw [hsame], by rw [htrail]; exact .nil, ?_⟩
  intro c₁ c₂ hc₁ hc₂ hstate
  rw [hsame] at hc₂
  obtain rfl := Option.some.inj (hc₁.symm.trans hc₂)
  exact ⟨hstate, rfl⟩

theorem updateState_sound_iff (h : connections.lookup handle = some c) :
    CallSound connections ⟨handle, .updateState, world⟩ ↔
      (c.state = .offerSent → ∀ messages,
        world.getMessages c.pwDid c.pwVerkey c.agentDid c.agentVk = .ok messages →
          AnswersAgree (answersIn world messages)) := by
  by_cases hstate : c.state = .offerSent
  · cases hget : world.getMessages c.pwDid c.pwVerkey c.agentDid c.agentVk with
    | error e =>
      refine iff_of_true (callSound_of_unchanged ?_ ?_) (by simp)
      · simp [pairwise, updateState, h, hstate, hget]
      · simp [pairwise, updateState, h, hstate, hget]
    | ok messages =>
      have hstep : pairwise.step ⟨handle, .updateState, world⟩ connections =
          (((acceptAnswers world c messages).1.map (fun _ => 0),
            applyAnswers c (answersIn world messages)),
            connections.insert handle
              ((c :: applyAnswers c (answersIn world messages)).getLast
                (cons_ne_nil _ _))) := by
        simp [pairwise, updateState, h, hstate, hget, acceptAnswers_trail]
      have hfinal : (pairwise.step ⟨handle, .updateState, world⟩ connections).2.lookup handle =
          some ((c :: applyAnswers c (answersIn world messages)).getLast
            (cons_ne_nil _ _)) := by
        rw [hstep]
        exact lookup_insert _
      have hrefused : (∃ e, (pairwise.step ⟨handle, .updateState, world⟩ connections).1.1 =
          .error e) ↔ ∃ e, Except.error e ∈ answersIn world messages := by
        rw [hstep, ← @acceptAnswers_error world c]
        cases (acceptAnswers world c messages).1 <;> simp [Except.map]
      have hagree : AnswersAgree (answersIn world messages) ↔
          CallSound connections ⟨handle, .updateState, world⟩ := by
        rw [@answersAgree_iff _ c]
        constructor
        · rintro ⟨hempty, hchain⟩
          refine ⟨fun e he => ?_, by rw [hstep]; exact hchain, ?_⟩
          · dsimp only
            rw [hfinal, h]
            exact congrArg some ((getLast_view_iff hstate).mpr (hempty (hrefused.mp ⟨e, he⟩)))
          · intro c₁ c₂ hc₁ _ haccepted
            rw [← Option.some.inj (h.symm.trans hc₁), hstate] at haccepted
            cases haccepted
        · intro hsound
          refine ⟨fun herror => ?_, by simpa [hstep] using hsound.trail⟩
          obtain ⟨e, he⟩ := hrefused.mpr herror
          have hview := hsound.refused e he
          dsimp only at hview
          rw [hfinal, h] at hview
          exact (getLast_view_iff hstate).mp (Option.some.inj hview)
      rw [← hagree]
      simp [hstate]
  · refine iff_of_true ?_ (fun hoffer => absurd hoffer hstate)
    by_cases hidle : c.state = .initialized ∨ c.state = .accepted
    · exact callSound_of_unchanged (by simp [pairwise, updateState, h, hidle])
        (by simp [pairwise, updateState, h, hidle])
    · cases hget : world.getMessages c.pwDid c.pwVerkey c.agentDid c.agentVk <;>
        exact callSound_of_unchanged (by simp [pairwise, updateState, h, hidle, hget, hstate])
          (by simp [pairwise, updateState, h, hidle, hget, hstate])

end

theorem callSound_iff (connections : Connections) (call : Call) :
    CallSound connections call ↔ Fits connections call := by
  cases h : connections.lookup call.handle with
  | none =>
    refine iff_of_true (callSound_of_missing h) (fun c hc => ?_)
    rw [h] at hc
    cases hc
  | some c =>
    obtain ⟨handle, operation, world⟩ := call
    simp only [Fits, h, Option.some.injEq, forall_eq']
    cases operation with
    | connect options => exact connect_sound_iff h options
    | updateState => exact updateState_sound_iff h
    | deleteConnection => exact deleteConnection_sound_iff h

/-! ### Runs -/

theorem lookup_getMut_of_ne {other : ℕ} (f : Connection → Changed) (hne : other ≠ handle) :
    (getMut connections handle f).2.lookup other = connections.lookup other := by
  rw [getMut]
  split
  · exact lookup_insert_ne hne
  · rfl

theorem lookup_release_of_ne {other : ℕ} (hne : other ≠ handle) :
    (release connections handle).2.lookup other = connections.lookup other := by
  rw [release]
  split
  · exact lookup_erase_ne hne
  · rfl

theorem lookup_step_of_ne {call : Call} (hne : handle ≠ call.handle) :
    (pairwise.step call connections).2.lookup handle = connections.lookup handle := by
  obtain ⟨called, operation, world⟩ := call
  cases operation with
  | connect options =>
    cases options with
    | error e => rfl
    | ok o => exact lookup_getMut_of_ne _ hne
  | updateState =>
    simp only [pairwise, updateState]
    split
    · rfl
    · split_ifs
      · rfl
      · split
        · rfl
        · exact lookup_insert_ne hne
      · split <;> rfl
  | deleteConnection =>
    have hstep : (pairwise.step ⟨called, .deleteConnection, world⟩ connections).2 =
        (release (getMut connections called fun c => c.deleteConnection world).2 called).2 := by
      simp only [pairwise, deleteConnection]
      split <;> rfl
    rw [hstep, lookup_release_of_ne hne, lookup_getMut_of_ne _ hne]

theorem lookup_step_of_none {call : Call} (h : connections.lookup handle = none) :
    (pairwise.step call connections).2.lookup handle = none := by
  by_cases hne : handle = call.handle
  · subst hne
    obtain ⟨handle, operation, world⟩ := call
    cases operation with
    | connect options => cases options <;> simp [pairwise, connect, getMut, h]
    | updateState => simp [pairwise, updateState, h]
    | deleteConnection => simp [pairwise, deleteConnection, getMut, release, h]
  · rw [lookup_step_of_ne hne, h]

theorem lookup_run_of_none (calls : List Call) (h : connections.lookup handle = none) :
    (pairwise.run calls connections).lookup handle = none := by
  induction calls generalizing connections with
  | nil => exact h
  | cons call calls ih => exact ih (lookup_step_of_none h)

theorem settled_of_along {calls : List Call} (hsound : pairwise.Along CallSound connections calls)
    {c c' : Connection} (hc : connections.lookup handle = some c) (hstate : c.state = .accepted)
    (hc' : (pairwise.run calls connections).lookup handle = some c') :
    c'.state = .accepted ∧ c'.keys = c.keys := by
  induction calls generalizing connections c with
  | nil =>
    obtain rfl := Option.some.inj (hc.symm.trans hc')
    exact ⟨hstate, rfl⟩
  | cons call calls ih =>
    cases hnext : (pairwise.step call connections).2.lookup handle with
    | none =>
      have hgone := lookup_run_of_none calls hnext
      rw [Machine.run, hgone] at hc'
      cases hc'
    | some next =>
      have hkept : next.state = .accepted ∧ next.keys = c.keys := by
        by_cases hne : handle = call.handle
        · subst hne
          exact hsound.1.settled c next hc hnext hstate
        · rw [lookup_step_of_ne hne, hc] at hnext
          obtain rfl := Option.some.inj hnext
          exact ⟨hstate, rfl⟩
      obtain ⟨hstate', hkeys⟩ := ih hsound.2 hnext hkept.1 hc'
      exact ⟨hstate', hkeys.trans hkept.2⟩

/-- Every call of a run leaves the connection as it was when it fails, and an accepted one its
keys, exactly when every call fits; accepted connections then keep their keys to the end. -/
theorem connectionCalls_sound_iff (connections : Connections) (calls : List Call) :
    (pairwise.Along CallSound connections calls ↔ pairwise.Along Fits connections calls) ∧
      (pairwise.Along Fits connections calls → ∀ before after, calls = before ++ after →
        ∀ handle c c', (pairwise.run before connections).lookup handle = some c →
          c.state = .accepted → (pairwise.run calls connections).lookup handle = some c' →
          c'.state = .accepted ∧ c'.keys = c.keys) := by
  have hiff : ∀ calls connections, pairwise.Along CallSound connections calls ↔
      pairwise.Along Fits connections calls := fun calls connections =>
    @Machine.along_iff_along _ _ _ pairwise Fits CallSound (fun _ => True)
      (fun s call _ => callSound_iff s call) (fun _ _ _ => trivial) connections calls trivial
  refine ⟨hiff calls connections, ?_⟩
  rintro hfits before after rfl handle c c' hc hstate hc'
  rw [Machine.run_append] at hc'
  exact settled_of_along (Machine.along_append.mp ((hiff _ _).mpr hfits)).2 hc hstate hc'

/-- An agency that creates keys and does nothing else. -/
def keyWorld : World where
  institutionDid := .error ⟨.other 0, "", []⟩
  institutionName := .error ⟨.other 0, "", []⟩
  institutionLogoUrl := .error ⟨.other 0, "", []⟩
  createKeys := fun _ _ => .ok ("new did", "new verkey")
  updateData := fun _ _ _ _ => .error ⟨.other 0, "", []⟩
  sendInvite := fun _ _ _ _ _ _ => .error ⟨.other 0, "", []⟩
  acceptInvite := fun _ _ _ _ _ _ _ _ => .error ⟨.other 0, "", []⟩
  getMessages := fun _ _ _ _ => .ok []
  deleteConnection := fun _ _ _ _ => .error ⟨.other 0, "", []⟩
  parseAcceptanceDetails := fun _ => .error ⟨.other 0, "", []⟩

def acceptedConnection : Connection where
  sourceId := "alice"
  pwDid := "did"
  pwVerkey := "verkey"
  state := .accepted
  agentDid := "agent did"
  agentVk := "agent verkey"
  theirPwDid := "their did"
  theirPwVerkey := "their verkey"

/-- Connecting an accepted connection fails, and leaves it with other agent keys. -/
theorem acceptedConnect_rekeys :
    (pairwise.step ⟨1, .connect (.ok {}), keyWorld⟩ (AList.insert 1 acceptedConnection ∅)).1.1 =
        .error ⟨connectionError, "Connection _ in state _ not ready to connect", ["alice", "4"]⟩ ∧
      (pairwise.step ⟨1, .connect (.ok {}), keyWorld⟩
        (AList.insert 1 acceptedConnection ∅)).2.lookup 1 =
        some { acceptedConnection with agentDid := "new did", agentVk := "new verkey" } ∧
      ¬ pairwise.Along CallSound (AList.insert 1 acceptedConnection ∅)
        [⟨1, .connect (.ok {}), keyWorld⟩] := by
  refine ⟨rfl, rfl, fun h => ?_⟩
  have hkept := (h.1.settled acceptedConnection _ (lookup_insert _) rfl rfl).2
  exact absurd (congrArg Keys.agentDid hkept) (by decide)

end IndySdk.Vcx.Pairwise
