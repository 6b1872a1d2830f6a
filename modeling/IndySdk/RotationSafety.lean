import IndySdk.KeyRotation

/-!
# The wallet holds the key of the ledger

Every request that can still be taken by the ledger asks for a key that the wallet has as the key or
the temporary key of the DID. A rotation that asks the ledger switches the wallet only when the
ledger has switched; a resumed one trusts what it reads. The only report that can be wrong is that
of a command that has switched the wallet and then fails at the last two steps.
-/

namespace IndySdk.KeyRotation

open Crypto

variable (codec : LawfulBase58) (did : DidBytes)

namespace Rotation

variable (s : Rotation)

/-- The wallet has the key pair of the ledger's key, as the key or temporary key of the DID. -/
def Holds : Prop :=
  (s.wallet.verkey = s.ledger.key ∨ s.wallet.tempVerkey = some s.ledger.key) ∧
    s.ledger.key ∈ s.wallet.keys

/-- A resumed command that reads the key the ledger has is not turned away, and the steps up to the
report do not fail when the wallet stores what it is given and the ledger takes the request. -/
def Advances : Event → Prop
  | .resume (some (some ledgerVerkey)) =>
    s.phase = .idle → s.wallet.tempVerkey.isSome → ledgerVerkey = s.ledger.text codec did →
      (Event.step codec did s (.resume (some (some ledgerVerkey)))).1 = none
  | .proceed true (.received abbreviated true) =>
    match s.phase with
    | .submit _ => s.ledger.key = s.wallet.verkey →
        (s.proceed codec did true (.received abbreviated true)).1 = none
    | .apply .. | .deleteTemporaryDid _ =>
      (s.proceed codec did true (.received abbreviated true)).1 = none
    | _ => True
  | _ => True

structure Sound (event : Event) : Prop where
  holds : (event.step codec did s).2.Holds
  advances : s.Advances codec did event
  settled : ∀ newVerkey, (event.step codec did s).2.phase = .report newVerkey →
    (event.step codec did s).2.wallet.verkey = (event.step codec did s).2.ledger.key ∧
      (event.step codec did s).2.wallet.tempVerkey = none
  reported : ∀ success, (event.step codec did s).1 = some success →
    (success = true ↔ (event.step codec did s).2.switched = true)

/-- A resumed command that found the temporary key on the ledger finds it there indeed; the
temporary record can be deleted once the wallet is switched; and the new key is not spelled in its
abbreviated form when its change is reported. -/
def Guarded : Event → Prop
  | .proceed stored _ =>
    match s.phase with
    | .apply _ false => stored → s.wallet.tempVerkey = some s.ledger.key
    | .deleteTemporaryDid _ => stored
    | .report newVerkey => abbreviated newVerkey = none
    | _ => True
  | _ => True

/-! ### The invariant -/

/-- A request cannot be taken any more, or asks for a key that the wallet would hold. -/
structure Harmless (wallet : DidWallet) (nym : Nym) : Prop where
  stored : nym.signer ∈ wallet.keys
  temporary : wallet.tempVerkey = some nym.signer → wallet.verkey = nym.signer
  wanted : ∀ key, nym.verkey.bind (codec.readVerkey did) = some key →
    wallet.tempVerkey = some key ∨ wallet.verkey = key ∨ wallet.verkey ≠ nym.signer

def Spells (text : String) (key : PublicKey) : Prop :=
  text = codec.keyText key ∨ text = codec.shortText did key

def PhaseInv : Phase → Prop
  | .idle => True
  | .addTemporaryDid verkey =>
    verkey ∈ s.wallet.keys ∧ (∀ nym ∈ s.inFlight, nym.signer ≠ verkey) ∧ s.switched = false
  | .submit newVerkey => ∃ key, s.wallet.tempVerkey = some key ∧
      Spells codec did newVerkey key ∧ s.switched = false
  | .apply newVerkey updateLedger => ∃ key, s.wallet.tempVerkey = some key ∧
      Spells codec did newVerkey key ∧ s.switched = false ∧
        (updateLedger = true → s.ledger.key = key)
  | .deleteTemporaryDid newVerkey => s.wallet.tempVerkey = some s.wallet.verkey ∧
      Spells codec did newVerkey s.wallet.verkey ∧ s.switched = true
  | .report newVerkey => s.wallet.tempVerkey = none ∧
      Spells codec did newVerkey s.wallet.verkey ∧ s.switched = true

structure Kept : Prop where
  holds : s.Holds
  verkey : s.wallet.verkey ∈ s.wallet.keys
  tempVerkey : ∀ key, s.wallet.tempVerkey = some key → key ∈ s.wallet.keys
  inFlight : ∀ nym ∈ s.inFlight, Harmless codec did s.wallet nym

structure Inv : Prop where
  kept : s.Kept codec did
  phase : s.PhaseInv codec did s.phase

variable {codec did} {s}

theorem readVerkey_of_spells {text : String} {key : PublicKey} (h : Spells codec did text key) :
    codec.readVerkey did text = some key := by
  rcases h with rfl | rfl
  · exact codec.readVerkey_keyText did key
  · exact codec.readVerkey_shortText did key

theorem spells_inj {text : String} {key other : PublicKey} (h : Spells codec did text key)
    (hother : Spells codec did text other) : key = other :=
  Option.some.inj ((readVerkey_of_spells h).symm.trans (readVerkey_of_spells hother))

theorem eq_keyText_of_spells {text : String} {key : PublicKey} (h : Spells codec did text key)
    (hfull : abbreviated text = none) : text = codec.keyText key := by
  rcases h with h | h
  · exact h
  · unfold LawfulBase58.shortText at h
    split at h
    · rw [h, codec.abbreviated_mark] at hfull
      cases hfull
    · exact h

/-! ### What the steps do to the wallet, the ledger and the requests -/

theorem Kept.storeKey (h : s.Kept codec did) (verkey : PublicKey) :
    Kept codec did
      { s with wallet := { s.wallet with keys := insert verkey s.wallet.keys } } := by
  refine ⟨⟨h.holds.1, Finset.mem_insert_of_mem h.holds.2⟩, Finset.mem_insert_of_mem h.verkey,
    fun key hkey => Finset.mem_insert_of_mem (h.tempVerkey key hkey), ?_⟩
  intro nym hnym
  have hharmless := h.inFlight nym hnym
  exact ⟨Finset.mem_insert_of_mem hharmless.stored, hharmless.temporary, hharmless.wanted⟩

theorem Kept.setTemporary (h : s.Kept codec did) (hnone : s.wallet.tempVerkey = none)
    {verkey : PublicKey} (hverkey : verkey ∈ s.wallet.keys)
    (hnew : ∀ nym ∈ s.inFlight, nym.signer ≠ verkey) :
    Kept codec did { s with wallet := { s.wallet with tempVerkey := some verkey } } := by
  have hledger : s.wallet.verkey = s.ledger.key := by
    rcases h.holds.1 with hkey | htemp
    · exact hkey
    · rw [hnone] at htemp
      cases htemp
  refine ⟨⟨.inl hledger, h.holds.2⟩, h.verkey, ?_, ?_⟩
  · rintro key ⟨⟩
    exact hverkey
  · intro nym hnym
    have hharmless := h.inFlight nym hnym
    refine ⟨hharmless.stored, ?_, ?_⟩
    · intro he
      exact absurd (Option.some.inj he).symm (hnew nym hnym)
    · intro key hkey
      rcases hharmless.wanted key hkey with htemp | hrest
      · rw [hnone] at htemp
        cases htemp
      · exact .inr hrest

theorem Kept.switch (h : s.Kept codec did) (htemp : s.wallet.tempVerkey = some s.ledger.key) :
    Kept codec did { s with
      wallet := { s.wallet with verkey := s.ledger.key }, switched := true } := by
  refine ⟨⟨.inl rfl, h.holds.2⟩, h.holds.2, h.tempVerkey, ?_⟩
  intro nym hnym
  have hharmless := h.inFlight nym hnym
  refine ⟨hharmless.stored, ?_, ?_⟩
  · intro he
    rw [htemp] at he
    exact Option.some.inj he
  · intro key hkey
    by_cases hsigner : s.ledger.key = nym.signer
    · have hverkey := hharmless.temporary (by rw [htemp, hsigner])
      rcases hharmless.wanted key hkey with hwanted | hwanted | hne
      · exact .inl hwanted
      · exact .inr (.inl (by rw [hsigner, ← hverkey, hwanted]))
      · exact absurd hverkey hne
    · exact .inr (.inr hsigner)

theorem Kept.dropTemporary (h : s.Kept codec did)
    (htemp : s.wallet.tempVerkey = some s.wallet.verkey) :
    Kept codec did { s with wallet := { s.wallet with tempVerkey := none } } := by
  have hledger : s.wallet.verkey = s.ledger.key := by
    rcases h.holds.1 with hkey | hkey
    · exact hkey
    · rw [htemp] at hkey
      exact Option.some.inj hkey
  refine ⟨⟨.inl hledger, h.holds.2⟩, h.verkey, (fun key hkey => by cases hkey), ?_⟩
  intro nym hnym
  have hharmless := h.inFlight nym hnym
  refine ⟨hharmless.stored, (fun he => by cases he), ?_⟩
  intro key hkey
  rcases hharmless.wanted key hkey with hwanted | hrest
  · rw [htemp] at hwanted
    exact .inr (.inl (Option.some.inj hwanted))
  · exact .inr hrest

theorem Kept.harmless (h : s.Kept codec did) {newVerkey : String} {key : PublicKey}
    (htemp : s.wallet.tempVerkey = some key) (hspells : Spells codec did newVerkey key)
    (dest : String) (role : Option (Option String)) :
    Harmless codec did s.wallet ⟨dest, some newVerkey, role, s.wallet.verkey⟩ := by
  refine ⟨h.verkey, fun _ => rfl, ?_⟩
  intro other hother
  have hread : codec.readVerkey did newVerkey = some other := hother
  rw [readVerkey_of_spells hspells] at hread
  exact .inl (by rw [htemp, hread])

theorem Kept.delay (h : s.Kept codec did) {nym : Nym} (hnym : Harmless codec did s.wallet nym) :
    Kept codec did { s with inFlight := s.inFlight ++ [nym] } := by
  refine ⟨h.holds, h.verkey, h.tempVerkey, ?_⟩
  intro other hother
  rcases List.mem_append.mp hother with hother | hother
  · exact h.inFlight other hother
  · rw [List.mem_singleton.mp hother]
    exact hnym

theorem receive_eq_some {ledger ledger' : LedgerDid} {nym : Nym} {abbreviated : Bool}
    (h : ledger.receive codec did nym abbreviated = some ledger') :
    nym.signer = ledger.key ∧ nym.verkey.bind (codec.readVerkey did) = some ledger'.key := by
  unfold LedgerDid.receive at h
  split at h
  · rename_i hsigner
    obtain ⟨key, hkey, rfl⟩ := Option.map_eq_some_iff.mp h
    exact ⟨hsigner, hkey⟩
  · cases h

/-- The key that a harmless request gives the ledger is held by the wallet; while the wallet has
another key than the ledger, the request changes nothing. -/
theorem Kept.receive_key (h : s.Kept codec did) {nym : Nym}
    (hnym : Harmless codec did s.wallet nym) {ledger : LedgerDid} {abbreviated : Bool}
    (hreceive : s.ledger.receive codec did nym abbreviated = some ledger) :
    s.wallet.tempVerkey = some ledger.key ∨ s.wallet.verkey = ledger.key := by
  obtain ⟨hsigner, hkey⟩ := receive_eq_some hreceive
  have hverkey : s.wallet.verkey = nym.signer := by
    rcases h.holds.1 with hledger | htemp
    · rw [hledger, hsigner]
    · exact hnym.temporary (by rw [hsigner, htemp])
  rcases hnym.wanted ledger.key hkey with htemp | hsame | hne
  · exact .inl htemp
  · exact .inr hsame
  · exact absurd hverkey hne

theorem Kept.receive (h : s.Kept codec did) {nym : Nym} (hnym : Harmless codec did s.wallet nym)
    {ledger : LedgerDid} {abbreviated : Bool}
    (hreceive : s.ledger.receive codec did nym abbreviated = some ledger) :
    Kept codec did { s with ledger } := by
  have hkey := h.receive_key hnym hreceive
  refine ⟨⟨hkey.symm, ?_⟩, h.verkey, h.tempVerkey, h.inFlight⟩
  rcases hkey with htemp | hverkey
  · exact h.tempVerkey ledger.key htemp
  · exact hverkey ▸ h.verkey

/-! ### The steps of a command -/

/-- A step that keeps the invariant and reports whether the wallet was switched. -/
structure Good (codec : LawfulBase58) (did : DidBytes) (r : Report × Rotation) : Prop where
  inv : r.2.Inv codec did
  reported : ∀ success, r.1 = some success → (success = true ↔ r.2.switched = true)

theorem Good.goOn (h : s.Kept codec did) {phase : Phase} (hphase : s.PhaseInv codec did phase) :
    Good codec did (s.goOn phase) :=
  ⟨⟨⟨h.holds, h.verkey, h.tempVerkey, h.inFlight⟩, by cases phase <;> exact hphase⟩,
    fun success he => by cases he⟩

theorem fail_inv (h : s.Kept codec did) : s.fail.2.Inv codec did :=
  ⟨⟨h.holds, h.verkey, h.tempVerkey, h.inFlight⟩, trivial⟩

theorem Good.fail (h : s.Kept codec did) (hswitched : s.switched = false) :
    Good codec did s.fail := by
  refine ⟨fail_inv h, ?_⟩
  rintro success ⟨⟩
  exact iff_of_false Bool.false_ne_true (by simp [Rotation.fail, hswitched])

theorem replaceKeysStart_good (h : s.Kept codec did) (hswitched : s.switched = false)
    (verkey : PublicKey) (stored : Bool) :
    Good codec did (s.replaceKeysStart codec did verkey stored) := by
  unfold replaceKeysStart
  rw [codec.validateDid_didText]
  dsimp only
  split
  · exact Good.fail h hswitched
  · rename_i hnew
    have hnot : verkey ∉ s.wallet.keys := fun hmem => hnew (.inl hmem)
    refine Good.goOn (h.storeKey verkey) ⟨Finset.mem_insert_self _ _, ?_, hswitched⟩
    intro nym hnym he
    exact hnot (he ▸ (h.inFlight nym hnym).stored)

theorem addTemporaryDid_good (h : s.Kept codec did) {verkey : PublicKey}
    (hphase : s.PhaseInv codec did (.addTemporaryDid verkey)) (stored : Bool) :
    Good codec did (s.addTemporaryDid codec verkey stored) := by
  obtain ⟨hverkey, hnew, hswitched⟩ := hphase
  unfold addTemporaryDid
  split
  · exact Good.fail h hswitched
  · rename_i hfree
    have hnone : s.wallet.tempVerkey = none :=
      Option.not_isSome_iff_eq_none.mp (fun htemp => hfree (.inl htemp))
    exact Good.goOn (h.setTemporary hnone hverkey hnew)
      ⟨verkey, rfl, .inl rfl, hswitched⟩

/-- The spelling of a key that is compared with a text of the ledger. -/
def spelling (codec : LawfulBase58) (did : DidBytes) (ledgerVerkey : String) (key : PublicKey) :
    String :=
  if (abbreviated ledgerVerkey).isSome then codec.shortText did key else codec.keyText key

theorem comparable_eq (ledgerVerkey : String) (key : PublicKey) :
    comparable codec did ledgerVerkey key = .ok (spelling codec did ledgerVerkey key) := by
  unfold comparable spelling
  split
  · exact codec.abbreviateVerkey_keyText did key
  · rfl

variable (codec did) in
theorem spells_spelling (ledgerVerkey : String) (key : PublicKey) :
    Spells codec did (spelling codec did ledgerVerkey key) key := by
  unfold spelling
  split
  · exact .inr rfl
  · exact .inl rfl

variable (codec did) in
theorem text_eq_spelling (ledger : LedgerDid) :
    ledger.text codec did = spelling codec did (ledger.text codec did) ledger.key := by
  have hfull : abbreviated (codec.keyText ledger.key) = none := codec.abbreviated_toBase58 _
  unfold LedgerDid.text spelling
  split
  · unfold LawfulBase58.shortText
    split
    · rw [codec.abbreviated_mark]
      rfl
    · rw [hfull]
      rfl
  · rw [hfull]
    rfl

theorem resume_good (h : s.Kept codec did) (hswitched : s.switched = false)
    (ledgerVerkey : Option (Option String)) :
    Good codec did (s.resume codec did ledgerVerkey) := by
  unfold resume
  cases htemp : s.wallet.tempVerkey with
  | none => exact Good.fail h hswitched
  | some tempVerkey =>
    cases ledgerVerkey with
    | none => exact Good.fail h hswitched
    | some found =>
      cases found with
      | none => exact Good.fail h hswitched
      | some ledgerText =>
        have hspells := spells_spelling codec did ledgerText tempVerkey
        dsimp only
        rw [comparable_eq, comparable_eq]
        dsimp only
        split
        · exact Good.goOn h ⟨tempVerkey, htemp, hspells, hswitched, fun he => by cases he⟩
        · split
          · exact Good.goOn h ⟨tempVerkey, htemp, hspells, hswitched⟩
          · exact Good.fail h hswitched

theorem resume_current (h : s.Kept codec did) (htemp : s.wallet.tempVerkey.isSome) :
    (s.resume codec did (some (some (s.ledger.text codec did)))).1 = none := by
  obtain ⟨tempVerkey, htemp⟩ := Option.isSome_iff_exists.mp htemp
  have htext := text_eq_spelling codec did s.ledger
  unfold resume
  rw [htemp]
  dsimp only
  rw [comparable_eq, comparable_eq]
  dsimp only
  by_cases hnew : s.ledger.text codec did =
      spelling codec did (s.ledger.text codec did) tempVerkey
  · rw [if_pos hnew]
    rfl
  · rw [if_neg hnew]
    rcases h.holds.1 with hkey | hkey
    · rw [hkey, if_pos htext]
      rfl
    · rw [htemp] at hkey
      exact absurd (by rw [Option.some.inj hkey]; exact htext) hnew

theorem submit_good (h : s.Kept codec did) {newVerkey : String}
    (hphase : s.PhaseInv codec did (.submit newVerkey)) (submission : Submission) :
    Good codec did (s.submit codec did newVerkey submission) := by
  obtain ⟨key, htemp, hspells, hswitched⟩ := hphase
  have hharmless := h.harmless htemp hspells (codec.didText did) none
  unfold submit buildNymRequest
  dsimp only
  cases submission with
  | refused => exact Good.fail h hswitched
  | delayed => exact Good.fail (h.delay hharmless) hswitched
  | received abbreviated replied =>
    dsimp only
    cases hreceive : s.ledger.receive codec did
        ⟨codec.didText did, some newVerkey, none, s.wallet.verkey⟩ abbreviated with
    | none => exact Good.fail h hswitched
    | some ledger =>
      have hread : codec.readVerkey did newVerkey = some ledger.key := (receive_eq_some hreceive).2
      rw [readVerkey_of_spells hspells] at hread
      dsimp only
      split
      · exact Good.goOn (h.receive hharmless hreceive)
          ⟨key, htemp, hspells, hswitched, fun _ => (Option.some.inj hread).symm⟩
      · exact Good.fail (h.receive hharmless hreceive) hswitched

theorem updateDid_good (h : s.Kept codec did) {newVerkey : String} {updateLedger : Bool}
    (hphase : s.PhaseInv codec did (.apply newVerkey updateLedger)) {stored : Bool}
    (hledger : stored = true → s.wallet.tempVerkey = some s.ledger.key) :
    Good codec did (s.updateDid codec did newVerkey stored) := by
  obtain ⟨key, htemp, hspells, hswitched, _⟩ := hphase
  unfold updateDid
  rw [codec.validateDid_didText, htemp]
  dsimp only
  split
  · rename_i hstored
    have hkey := hledger hstored
    have hsame : key = s.ledger.key := by
      rw [htemp] at hkey
      exact Option.some.inj hkey
    subst hsame
    exact Good.goOn (h.switch hkey) ⟨htemp, hspells, rfl⟩
  · exact Good.fail h hswitched

theorem deleteTemporaryDid_good (h : s.Kept codec did) {newVerkey : String}
    (hphase : s.PhaseInv codec did (.deleteTemporaryDid newVerkey)) :
    Good codec did (s.deleteTemporaryDid newVerkey true) := by
  obtain ⟨htemp, hspells, hswitched⟩ := hphase
  exact Good.goOn (h.dropTemporary htemp) ⟨rfl, hspells, hswitched⟩

theorem report_good (h : s.Kept codec did) {newVerkey : String}
    (hphase : s.PhaseInv codec did (.report newVerkey)) (hfull : abbreviated newVerkey = none) :
    Good codec did (s.report codec did newVerkey) := by
  obtain ⟨_, hspells, hswitched⟩ := hphase
  unfold report
  rw [eq_keyText_of_spells hspells hfull, codec.abbreviateVerkey_keyText]
  refine ⟨⟨⟨h.holds, h.verkey, h.tempVerkey, h.inFlight⟩, trivial⟩, ?_⟩
  rintro success ⟨⟩
  exact iff_of_true rfl hswitched

theorem report_abbreviated {newVerkey rest : String} (h : abbreviated newVerkey = some rest) :
    s.report codec did newVerkey = s.fail := by
  unfold report
  cases hshort : abbreviateVerkey codec.base58 (codec.didText did) newVerkey with
  | ok text => exact absurd hshort (codec.abbreviateVerkey_of_abbreviated did h text)
  | err e => rfl
  | panic => rfl

theorem deliver_inv (h : s.Inv codec did) (nym : ℕ) (abbreviated : Bool) :
    (s.deliver codec did nym abbreviated).Inv codec did := by
  obtain ⟨hkept, hphase⟩ := h
  unfold deliver
  cases hnym : s.inFlight[nym]? with
  | none => exact ⟨hkept, hphase⟩
  | some request =>
    have hharmless := hkept.inFlight request (List.mem_of_getElem? hnym)
    have hsub : ∀ other ∈ s.inFlight.eraseIdx nym, other ∈ s.inFlight :=
      fun other hother => (List.eraseIdx_sublist s.inFlight nym).subset hother
    let rest : Rotation := { s with inFlight := s.inFlight.eraseIdx nym }
    have hrest : rest.Kept codec did := ⟨hkept.holds, hkept.verkey, hkept.tempVerkey,
      fun other hother => hkept.inFlight other (hsub other hother)⟩
    have hrestPhase : ∀ phase, s.PhaseInv codec did phase → rest.PhaseInv codec did phase := by
      intro phase hphase
      cases phase with
      | addTemporaryDid verkey =>
        exact ⟨hphase.1, fun other hother => hphase.2.1 other (hsub other hother), hphase.2.2⟩
      | _ => exact hphase
    dsimp only
    cases hreceive : s.ledger.receive codec did request abbreviated with
    | none => exact ⟨hrest, hrestPhase s.phase hphase⟩
    | some ledger =>
      refine ⟨hrest.receive hharmless hreceive, ?_⟩
      have hkey := hkept.receive_key hharmless hreceive
      obtain ⟨hsigner, _⟩ := receive_eq_some hreceive
      have hphase' := hrestPhase s.phase hphase
      change PhaseInv codec did { rest with ledger } s.phase
      cases hp : s.phase with
      | apply newVerkey updateLedger =>
        rw [hp] at hphase'
        obtain ⟨key, htemp, hspells, hswitched, hledger⟩ := hphase'
        refine ⟨key, htemp, hspells, hswitched, ?_⟩
        intro hupdate
        have hverkey : s.wallet.verkey = key := by
          have hkeyed : s.ledger.key = key := hledger hupdate
          rw [hharmless.temporary (by rw [hsigner, hkeyed]; exact htemp), hsigner, hkeyed]
        rcases hkey with hkey | hkey
        · have htemp' : s.wallet.tempVerkey = some key := htemp
          rw [htemp'] at hkey
          exact (Option.some.inj hkey).symm
        · exact hkey.symm.trans hverkey
      | _ =>
        rw [hp] at hphase'
        exact hphase'

theorem proceed_good (h : s.Inv codec did) {stored : Bool} {submission : Submission}
    (hguarded : s.Guarded (.proceed stored submission)) :
    Good codec did (s.proceed codec did stored submission) := by
  obtain ⟨hkept, hphase⟩ := h
  unfold Guarded at hguarded
  unfold proceed
  cases hp : s.phase with
  | idle => exact ⟨⟨hkept, hphase⟩, fun success he => by cases he⟩
  | addTemporaryDid verkey =>
    rw [hp] at hphase
    exact addTemporaryDid_good hkept hphase stored
  | submit newVerkey =>
    rw [hp] at hphase
    exact submit_good hkept hphase submission
  | apply newVerkey updateLedger =>
    rw [hp] at hphase hguarded
    refine updateDid_good hkept hphase (fun hstored => ?_)
    cases updateLedger with
    | false => exact hguarded hstored
    | true =>
      obtain ⟨key, htemp, _, _, hledger⟩ := hphase
      rw [htemp, hledger rfl]
  | deleteTemporaryDid newVerkey =>
    rw [hp] at hphase hguarded
    have hstored : stored = true := hguarded
    rw [hstored]
    exact deleteTemporaryDid_good hkept hphase
  | report newVerkey =>
    rw [hp] at hphase hguarded
    exact report_good hkept hphase hguarded

theorem step_good (h : s.Inv codec did) {event : Event} (hguarded : s.Guarded event) :
    Good codec did (event.step codec did s) := by
  have hidle : ∀ success, (none : Report) = some success →
      (success = true ↔ s.switched = true) := fun success he => by cases he
  have hbegin : s.begin.Kept codec did :=
    ⟨h.kept.holds, h.kept.verkey, h.kept.tempVerkey, h.kept.inFlight⟩
  cases event with
  | rotate verkey stored =>
    rw [Event.step]
    by_cases hphase : s.phase = .idle
    · rw [if_pos hphase]
      exact replaceKeysStart_good hbegin rfl verkey stored
    · rw [if_neg hphase]
      exact ⟨h, hidle⟩
  | resume ledgerVerkey =>
    rw [Event.step]
    by_cases hphase : s.phase = .idle
    · rw [if_pos hphase]
      exact resume_good hbegin rfl ledgerVerkey
    · rw [if_neg hphase]
      exact ⟨h, hidle⟩
  | proceed stored submission => exact proceed_good h hguarded
  | kill => exact ⟨fail_inv h.kept, hidle⟩
  | deliver nym abbreviated =>
    exact ⟨deliver_inv h nym abbreviated, fun success he => by cases he⟩

theorem submit_taken (hledger : s.ledger.key = s.wallet.verkey) {newVerkey : String}
    (hphase : s.PhaseInv codec did (.submit newVerkey)) (abbreviated : Bool) :
    (s.submit codec did newVerkey (.received abbreviated true)).1 = none := by
  obtain ⟨key, _, hspells, _⟩ := hphase
  have hreceive : s.ledger.receive codec did
      ⟨codec.didText did, some newVerkey, none, s.wallet.verkey⟩ abbreviated =
        some ⟨key, abbreviated⟩ := by
    rw [LedgerDid.receive, if_pos hledger.symm, Option.bind_some, readVerkey_of_spells hspells]
    rfl
  unfold submit buildNymRequest
  dsimp only
  rw [hreceive]
  rfl

theorem updateDid_stored {newVerkey : String} {updateLedger : Bool}
    (hphase : s.PhaseInv codec did (.apply newVerkey updateLedger)) :
    (s.updateDid codec did newVerkey true).1 = none := by
  obtain ⟨key, htemp, _⟩ := hphase
  unfold updateDid
  rw [codec.validateDid_didText, htemp]
  rfl

theorem advances_of_inv (h : s.Inv codec did) (event : Event) : s.Advances codec did event := by
  obtain ⟨hkept, hphase⟩ := h
  unfold Advances
  split
  · rename_i ledgerText
    intro hidle htemp htext
    have hbegin : s.begin.Kept codec did :=
      ⟨hkept.holds, hkept.verkey, hkept.tempVerkey, hkept.inFlight⟩
    rw [Event.step, if_pos hidle, htext]
    exact resume_current hbegin htemp
  · rename_i abbreviated
    unfold proceed
    cases hp : s.phase with
    | submit newVerkey =>
      rw [hp] at hphase
      exact fun hledger => submit_taken hledger hphase abbreviated
    | apply newVerkey updateLedger =>
      rw [hp] at hphase
      exact updateDid_stored hphase
    | deleteTemporaryDid newVerkey => rfl
    | idle => trivial
    | addTemporaryDid verkey => trivial
    | report newVerkey => trivial
  · trivial

theorem sound_of_good {event : Event} (h : Good codec did (event.step codec did s))
    (hadvances : s.Advances codec did event) : s.Sound codec did event := by
  refine ⟨h.inv.kept.holds, hadvances, ?_, h.reported⟩
  intro newVerkey hp
  have hphase := h.inv.phase
  rw [hp] at hphase
  rcases h.inv.kept.holds.1 with hkey | hkey
  · exact ⟨hkey, hphase.1⟩
  · rw [hphase.1] at hkey
    cases hkey

theorem guarded_of_sound (h : s.Inv codec did) {event : Event}
    (hsound : s.Sound codec did event) : s.Guarded event := by
  cases event with
  | proceed stored submission =>
    obtain ⟨hkept, hphase⟩ := h
    have hholds := hsound.holds.1
    have hreported := hsound.reported
    rw [Event.step, proceed] at hholds hreported
    unfold Guarded
    cases hp : s.phase with
    | apply newVerkey updateLedger =>
      cases updateLedger with
      | true => trivial
      | false =>
        intro hstored
        rw [hp] at hphase hholds
        obtain ⟨key, htemp, _⟩ := hphase
        dsimp only at hholds
        unfold updateDid at hholds
        rw [codec.validateDid_didText, htemp] at hholds
        dsimp only at hholds
        rw [if_pos hstored] at hholds
        rcases hholds with hkey | hkey
        · exact htemp.trans (congrArg some hkey)
        · exact hkey
    | deleteTemporaryDid newVerkey =>
      rw [hp] at hphase hreported
      obtain ⟨_, _, hswitched⟩ := hphase
      cases stored with
      | true => rfl
      | false => exact absurd ((hreported false rfl).mpr hswitched) Bool.false_ne_true
    | report newVerkey =>
      rw [hp] at hphase hreported
      obtain ⟨_, _, hswitched⟩ := hphase
      cases hshort : abbreviated newVerkey with
      | none => exact hshort
      | some rest =>
        dsimp only at hreported
        rw [report_abbreviated hshort] at hreported
        exact absurd ((hreported false rfl).mpr hswitched) Bool.false_ne_true
    | idle => trivial
    | addTemporaryDid verkey => trivial
    | submit newVerkey => trivial
  | rotate verkey stored => trivial
  | resume ledgerVerkey => trivial
  | kill => trivial
  | deliver nym abbreviated => trivial

theorem sound_iff_guarded (h : s.Inv codec did) (event : Event) :
    s.Sound codec did event ↔ s.Guarded event :=
  ⟨guarded_of_sound h, fun hguarded =>
    sound_of_good (step_good h hguarded) (advances_of_inv h event)⟩

/-- A DID whose key the ledger has, without a rotation under way. -/
def start (key : PublicKey) (others : Finset PublicKey) (abbreviated : Bool) : Rotation where
  wallet := ⟨key, none, insert key others⟩
  ledger := ⟨key, abbreviated⟩

theorem start_inv (key : PublicKey) (others : Finset PublicKey) (abbreviated : Bool) :
    (start key others abbreviated).Inv codec did :=
  ⟨⟨⟨.inl rfl, Finset.mem_insert_self _ _⟩, Finset.mem_insert_self _ _,
    (fun other he => by cases he), (fun nym hnym => by cases hnym)⟩, trivial⟩

end Rotation

/-! ### Runs of commands -/

variable {codec} {did}

theorem rotation_runs_sound_iff (key : PublicKey) (others : Finset PublicKey) (abbreviated : Bool)
    (events : List Event) :
    (rotateKeyCommand codec did).Along (Rotation.Sound codec did)
        (.start key others abbreviated) events ↔
      (rotateKeyCommand codec did).Along Rotation.Guarded (.start key others abbreviated) events :=
  Machine.along_iff_of_kept
    (fun _ event h => Rotation.sound_iff_guarded h event)
    (fun _ _ h hguarded => (Rotation.step_good h hguarded).inv) events
    (Rotation.start_inv key others abbreviated)

/-! ### A key that is abbreviated twice -/

def firstKey : PublicKey := ⟨List.replicate 32 7, rfl⟩
def secondKey : PublicKey := ⟨List.replicate 16 9 ++ List.replicate 16 5, rfl⟩
def secondDid : DidBytes := ⟨List.replicate 16 9, .inl rfl⟩

/-- The DID is the first half of the new key; the ledger takes the key and abbreviates it, its
reply is lost, and the command is resumed. -/
def resumedRotation : List Event :=
  [.rotate secondKey true, .proceed true .refused, .proceed true (.received true false),
    .resume (some (some (rustBase58Codec.shortText secondDid secondKey))),
    .proceed true .refused, .proceed true .refused, .proceed true .refused]

/-- The rotation before its last step: the wallet is switched, and the new key abbreviated. -/
def switchedRotation (codec : LawfulBase58) : Rotation where
  wallet := ⟨secondKey, none, {secondKey, firstKey}⟩
  ledger := ⟨secondKey, true⟩
  phase := .report (codec.shortText secondDid secondKey)
  switched := true

theorem shortText_second (codec : LawfulBase58) : codec.shortText secondDid secondKey =
    "~" ++ codec.base58.toBase58 (secondKey.bytes.drop 16) := by
  rw [LawfulBase58.shortText, if_pos (by decide)]

theorem comparable_second (codec : LawfulBase58) (key : PublicKey) :
    Rotation.comparable codec secondDid (codec.shortText secondDid secondKey) key =
      .ok (codec.shortText secondDid key) := by
  rw [Rotation.comparable, shortText_second, codec.abbreviated_mark, Option.isSome_some,
    if_pos rfl, codec.abbreviateVerkey_keyText]

/-- The events but the last. -/
def begunRotation (codec : LawfulBase58) : List Event :=
  [.rotate secondKey true, .proceed true .refused, .proceed true (.received true false),
    .resume (some (some (codec.shortText secondDid secondKey))),
    .proceed true .refused, .proceed true .refused]

theorem run_begun (codec : LawfulBase58) :
    (rotateKeyCommand codec secondDid).run (begunRotation codec) (.start firstKey ∅ false) =
      switchedRotation codec := by
  have hne : secondKey ≠ firstKey := by decide
  simp [begunRotation, Machine.run, rotateKeyCommand, Event.step, Rotation.start, Rotation.begin,
    Rotation.replaceKeysStart, codec.validateDid_didText, Rotation.proceed,
    Rotation.addTemporaryDid, Rotation.goOn, Rotation.submit, buildNymRequest, LedgerDid.receive,
    codec.readVerkey_keyText, Rotation.resume, comparable_second, Rotation.updateDid,
    Rotation.deleteTemporaryDid, Rotation.fail, hne, switchedRotation]

theorem step_switched (codec : LawfulBase58) : (Event.proceed true .refused).step codec secondDid
    (switchedRotation codec) = (switchedRotation codec).fail := by
  have hphase : (switchedRotation codec).phase =
      .report (codec.shortText secondDid secondKey) := rfl
  have hmark : abbreviated (codec.shortText secondDid secondKey) =
      some (codec.base58.toBase58 (secondKey.bytes.drop 16)) := by
    rw [shortText_second, codec.abbreviated_mark]
  rw [Event.step, Rotation.proceed, hphase]
  exact Rotation.report_abbreviated hmark

theorem switched_but_not_reported :
    ¬ (rotateKeyCommand rustBase58Codec secondDid).Along
      (Rotation.Sound rustBase58Codec secondDid) (.start firstKey ∅ false) resumedRotation := by
  intro h
  have hevents : resumedRotation = begunRotation rustBase58Codec ++ [.proceed true .refused] := rfl
  rw [hevents, Machine.along_append, run_begun] at h
  have hreported := h.2.1.reported false (congrArg Prod.fst (step_switched rustBase58Codec))
  rw [step_switched] at hreported
  exact absurd (hreported.mpr rfl) Bool.false_ne_true

/-! ### Resuming -/

/-- A step that the storage takes, and the ledger if it is asked, with a key in full. -/
def Event.taken : Event := .proceed true (.received false true)

namespace Rotation

variable {s : Rotation} {temp : PublicKey} {newVerkey : String}

/-- The command is killed, and resumed with what the ledger has. -/
def resumed (codec : LawfulBase58) (did : DidBytes) (s : Rotation) : List Event :=
  [.kill, .resume (some (some (s.ledger.text codec did)))]

/-- Wallet and ledger have the key, the temporary record is gone, and what is left of the command
is to report, which succeeds for a key that is not spelled in its abbreviated form. -/
structure Settled (codec : LawfulBase58) (did : DidBytes) (key : PublicKey) (s : Rotation) :
    Prop where
  verkey : s.wallet.verkey = key
  tempVerkey : s.wallet.tempVerkey = none
  ledger : s.ledger.key = key
  reported : ∃ newVerkey, s.phase = .report newVerkey ∧
    (Event.taken.step codec did s).1 = some (abbreviated newVerkey).isNone

def Resumes (codec : LawfulBase58) (did : DidBytes) (s : Rotation) (key : PublicKey) : Prop :=
  ∃ n ≤ 3, Settled codec did key ((rotateKeyCommand codec did).run
    (s.resumed codec did ++ List.replicate n .taken) s)

theorem report_eq {key : PublicKey} (h : Spells codec did newVerkey key) :
    (s.report codec did newVerkey).1 = some (abbreviated newVerkey).isNone := by
  cases hmark : abbreviated newVerkey with
  | some rest =>
    rw [report_abbreviated hmark]
    rfl
  | none =>
    unfold report
    rw [eq_keyText_of_spells h hmark, codec.abbreviateVerkey_keyText]
    rfl

theorem taken_submit (hphase : s.phase = .submit newVerkey)
    (hspells : Spells codec did newVerkey temp) (hledger : s.wallet.verkey = s.ledger.key) :
    (Event.taken.step codec did s).2 =
      { s with ledger := ⟨temp, false⟩, phase := .apply newVerkey true } := by
  have hreceive : s.ledger.receive codec did
      ⟨codec.didText did, some newVerkey, none, s.wallet.verkey⟩ false = some ⟨temp, false⟩ := by
    rw [LedgerDid.receive, if_pos hledger, Option.bind_some, readVerkey_of_spells hspells]
    rfl
  rw [Event.taken, Event.step, proceed, hphase]
  unfold submit buildNymRequest
  dsimp only
  rw [hreceive]
  rfl

theorem taken_apply {updateLedger : Bool} (hphase : s.phase = .apply newVerkey updateLedger)
    (htemp : s.wallet.tempVerkey = some temp) :
    (Event.taken.step codec did s).2 =
      { s with wallet := { s.wallet with verkey := temp }, switched := true,
               phase := .deleteTemporaryDid newVerkey } := by
  rw [Event.taken, Event.step, proceed, hphase]
  dsimp only
  rw [updateDid, codec.validateDid_didText, htemp]
  dsimp only
  rw [if_pos rfl, goOn, htemp]

theorem settled_of_apply {updateLedger : Bool} (hphase : s.phase = .apply newVerkey updateLedger)
    (htemp : s.wallet.tempVerkey = some temp) (hspells : Spells codec did newVerkey temp)
    (hledger : s.ledger.key = temp) :
    Settled codec did temp ((rotateKeyCommand codec did).run [.taken, .taken] s) := by
  rw [Machine.run, rotateKeyCommand]
  dsimp only
  rw [taken_apply hphase htemp]
  exact ⟨rfl, rfl, hledger, newVerkey, rfl, report_eq hspells⟩

theorem settled_of_submit (hphase : s.phase = .submit newVerkey)
    (htemp : s.wallet.tempVerkey = some temp) (hspells : Spells codec did newVerkey temp)
    (hledger : s.wallet.verkey = s.ledger.key) :
    Settled codec did temp ((rotateKeyCommand codec did).run [.taken, .taken, .taken] s) := by
  rw [Machine.run]
  change Settled codec did temp ((rotateKeyCommand codec did).run [.taken, .taken]
    (Event.taken.step codec did s).2)
  rw [taken_submit hphase hspells hledger]
  exact settled_of_apply rfl htemp hspells rfl

theorem Holds.current (h : s.Holds) (htemp : s.wallet.tempVerkey = some temp)
    (hnew : s.ledger.key ≠ temp) : s.wallet.verkey = s.ledger.key := by
  rcases h.1 with hkey | hkey
  · exact hkey
  · rw [htemp] at hkey
    exact absurd (Option.some.inj hkey).symm hnew

theorem run_resumed (h : s.Holds) (htemp : s.wallet.tempVerkey = some temp) :
    (rotateKeyCommand codec did).run (s.resumed codec did) s =
      { s with switched := false, phase :=
        if s.ledger.key = temp then .apply (spelling codec did (s.ledger.text codec did) temp) false
        else .submit (spelling codec did (s.ledger.text codec did) temp) } := by
  have htext := text_eq_spelling codec did s.ledger
  have hspells := spells_spelling codec did (s.ledger.text codec did)
  change (Rotation.resume codec did { s with phase := .idle, switched := false } _).2 = _
  unfold resume
  dsimp only
  rw [htemp]
  dsimp only
  rw [comparable_eq, comparable_eq]
  dsimp only
  by_cases hnew : s.ledger.key = temp
  · rw [if_pos hnew, ← hnew, if_pos htext]
    rfl
  · have hother : s.ledger.text codec did ≠
        spelling codec did (s.ledger.text codec did) temp := by
      intro he
      have hledger : Spells codec did (s.ledger.text codec did) s.ledger.key := by
        rw [htext]
        exact hspells s.ledger.key
      have hfound : Spells codec did (s.ledger.text codec did) temp := by
        rw [he]
        exact hspells temp
      exact hnew (spells_inj hledger hfound)
    rw [if_neg hnew, h.current htemp hnew, if_neg hother, if_pos htext]
    rfl

theorem resumes_of_holds (h : s.Holds) (htemp : s.wallet.tempVerkey = some temp) :
    s.Resumes codec did temp := by
  have hspells := spells_spelling codec did (s.ledger.text codec did) temp
  have hrun := @run_resumed codec did s temp h htemp
  by_cases hnew : s.ledger.key = temp
  · refine ⟨2, by decide, ?_⟩
    rw [if_pos hnew] at hrun
    rw [Machine.run_append, hrun]
    exact settled_of_apply rfl htemp hspells hnew
  · refine ⟨3, le_rfl, ?_⟩
    rw [if_neg hnew] at hrun
    rw [Machine.run_append, hrun]
    exact settled_of_submit rfl htemp hspells (h.current htemp hnew)

end Rotation

/-- Whatever interrupted the rotation, killing the command and resuming it with what the ledger
has brings wallet and ledger to the temporary key. -/
theorem rotation_resumes (key : PublicKey) (others : Finset PublicKey) (abbreviated : Bool)
    (events : List Event) (hguarded : (rotateKeyCommand codec did).Along Rotation.Guarded
      (.start key others abbreviated) events) (temp : PublicKey)
    (htemp : ((rotateKeyCommand codec did).run events
      (.start key others abbreviated)).wallet.tempVerkey = some temp) :
    ((rotateKeyCommand codec did).run events (.start key others abbreviated)).Resumes codec did
      temp := by
  have hstep : ∀ (s : Rotation) event, s.Inv codec did → s.Guarded event →
      ((rotateKeyCommand codec did).step event s).2.Inv codec did :=
    fun s event h hguarded => (Rotation.step_good h hguarded).inv
  have hinv := Machine.inv_run hstep (Rotation.start_inv key others abbreviated) hguarded
  exact Rotation.resumes_of_holds hinv.kept.holds htemp

/-- The ledger takes the new key, and the reply is lost. -/
def lostReply : List Event :=
  [.rotate secondKey true, .proceed true .refused, .proceed true (.received false false)]

theorem guarded_lostReply (codec : LawfulBase58) : (rotateKeyCommand codec secondDid).Along
    Rotation.Guarded (.start firstKey ∅ false) lostReply := by
  have hne : secondKey ≠ firstKey := by decide
  simp [lostReply, Machine.Along, rotateKeyCommand, Event.step, Rotation.start, Rotation.begin,
    Rotation.replaceKeysStart, codec.validateDid_didText, Rotation.proceed, Rotation.Guarded,
    Rotation.addTemporaryDid, Rotation.goOn, hne]

theorem tempVerkey_lostReply (codec : LawfulBase58) :
    ((rotateKeyCommand codec secondDid).run lostReply (.start firstKey ∅ false)).wallet.tempVerkey =
      some secondKey := by
  have hne : secondKey ≠ firstKey := by decide
  simp [lostReply, Machine.run, rotateKeyCommand, Event.step, Rotation.start, Rotation.begin,
    Rotation.replaceKeysStart, codec.validateDid_didText, Rotation.proceed,
    Rotation.addTemporaryDid, Rotation.goOn, Rotation.submit, buildNymRequest,
    LedgerDid.receive, codec.readVerkey_keyText, Rotation.fail, hne]

theorem lostReply_resumes : ((rotateKeyCommand rustBase58Codec secondDid).run lostReply
    (.start firstKey ∅ false)).Resumes rustBase58Codec secondDid secondKey :=
  rotation_resumes firstKey ∅ false lostReply (guarded_lostReply rustBase58Codec) secondKey
    (tempVerkey_lostReply rustBase58Codec)

end IndySdk.KeyRotation
