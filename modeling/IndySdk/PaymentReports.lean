import IndySdk.TokenRuns

/-!
# What the payment method reports

A receipt or a source names an address and a transaction, and the output it stands for is found
again as the first one of the transaction to that address. The report shows the output itself as
long as the address is read back from the name and no two outputs to one address differ.
-/

namespace IndySdk.NullPay

open List

structure SourceInfo where
  source : String
  paymentAddress : String
  amount : UInt64
  extra : Option String
  deriving DecidableEq

structure ShortReceiptInfo where
  receipt : String
  recipient : String
  amount : UInt64
  deriving DecidableEq

structure ReceiptVerificationInfo where
  sources : List String
  receipts : List ShortReceiptInfo
  extra : Option String
  deriving DecidableEq

def getSourceInfo (txns : AssocMap ℤ Txn) (source : String) : Option SourceInfo := do
  let (seqNo, recipient) ← fromSource source
  let txn ← txns.lookup seqNo
  let out ← txn.outputs.find? (fun out => out.recipient = recipient)
  some ⟨source, recipient, out.amount, txn.extra⟩

def shortReceipt (seqNo : ℤ) (output : Output) : Outcome Empty ShortReceiptInfo := do
  let receipt ← Outcome.unwrap (toSource output.recipient seqNo)
  pure ⟨receipt, output.recipient, output.amount⟩

def getReceiptVerificationInfo (txns : AssocMap ℤ Txn) (source : String) :
    Outcome Empty (Option ReceiptVerificationInfo) :=
  match fromSource source with
  | none => .ok none
  | some (seqNo, _) =>
    match txns.lookup seqNo with
    | none => .ok none
    | some txn => do
      let receipts ← txn.outputs.mapM (shortReceipt seqNo)
      pure (some ⟨txn.inputs, receipts, txn.extra⟩)

def getSourcesByPaymentAddress (cache : SourceCache) (paymentAddress : String) : List String :=
  (cache.sources.lookup paymentAddress).getD []

/-- The answer to a request for the sources of an address. -/
def paymentSources (s : PayState) (paymentAddress : String) : List SourceInfo :=
  (getSourcesByPaymentAddress s.cache paymentAddress).filterMap (getSourceInfo s.txns)

/-! ### Names that are read back -/

variable {paymentAddress source : String}

theorem payable_of_fromSource {seqNo : ℤ} (h : toSource paymentAddress seqNo = some source)
    (h' : fromSource source = some (seqNo, paymentAddress)) : Payable paymentAddress := by
  obtain ⟨scheme, method, id, hparts, -, hmade⟩ := toSource_some h
  refine ⟨scheme, method, id, hparts, ?_⟩
  unfold fromSource at h'
  rw [hmade] at h'
  dsimp only at h'
  rw [toList_numbered, splitOn_append_cons_self_of_not_mem
    (Numerals.not_mem_toString (by decide) (by decide) seqNo)] at h'
  split at h'
  · rename_i text id' hpieces
    rw [map_cons, List.cons.injEq] at hpieces
    have hone := congrArg (List.map String.toList) hpieces.2
    rw [map_map] at hone
    have hlast : id.toList.splitOn '_' = [id'.toList] := by simpa using hone
    intro hmem
    have hjoin := @intercalate_splitOn Char id.toList _ _ '_'
    have hin : id'.toList ∈ id.toList.splitOn '_' := by
      rw [hlast]
      exact mem_singleton_self _
    rw [hlast] at hjoin
    have hsame : id'.toList = id.toList := by simpa [List.intercalate] using hjoin
    rw [← hsame] at hmem
    exact Delimited.not_mem_of_mem_splitOn hin hmem
  · cases h'

theorem fromSource_toSource_iff {seqNo : ℤ} (hlow : -2 ^ 31 ≤ seqNo) (hhigh : seqNo < 2 ^ 31)
    (h : toSource paymentAddress seqNo = some source) :
    fromSource source = some (seqNo, paymentAddress) ↔ Payable paymentAddress :=
  ⟨payable_of_fromSource h, fun hpayable => hpayable.fromSource hlow hhigh h⟩

theorem fromSource_seqNo {paymentAddress' : String} {seqNo seqNo' : ℤ} (hlow : -2 ^ 31 ≤ seqNo)
    (hhigh : seqNo < 2 ^ 31) (h : toSource paymentAddress seqNo = some source)
    (h' : fromSource source = some (seqNo', paymentAddress')) : seqNo' = seqNo := by
  obtain ⟨scheme, method, id, hparts, -, hmade⟩ := toSource_some h
  unfold fromSource at h'
  rw [hmade] at h'
  dsimp only at h'
  rw [toList_numbered, splitOn_append_cons_self_of_not_mem
    (Numerals.not_mem_toString (by decide) (by decide) seqNo)] at h'
  split at h'
  · rename_i text id' hpieces
    rw [map_cons, List.cons.injEq, String.ofList_toList] at hpieces
    rw [← hpieces.1, Numerals.parseSigned_toString hlow hhigh] at h'
    exact (Prod.mk.inj (Option.some.inj h')).1.symm
  · cases h'

/-! ### One amount for one address -/

/-- Outputs to one address that is read back do not differ. -/
def OneAmount (outputs : List Output) : Prop :=
  ∀ out ∈ outputs, ∀ other ∈ outputs, Payable out.recipient →
    out.recipient = other.recipient → out.amount = other.amount

instance (outputs : List Output) : Decidable (OneAmount outputs) :=
  inferInstanceAs (Decidable (∀ out ∈ outputs, ∀ other ∈ outputs, _ → _ → _))

variable {output : Output} {address other : String}

theorem OneAmount.find {outputs : List Output} (h : OneAmount outputs) (hmem : output ∈ outputs)
    (hpayable : Payable output.recipient) :
    ∃ out, outputs.find? (fun out => out.recipient = output.recipient) = some out ∧
      out.amount = output.amount := by
  have hsome : (outputs.find? (fun out => out.recipient = output.recipient)).isSome :=
    find?_isSome.mpr ⟨output, hmem, by simp⟩
  obtain ⟨out, hout⟩ := Option.isSome_iff_exists.mp hsome
  have hrecipient : out.recipient = output.recipient := by simpa using find?_some hout
  refine ⟨out, hout, ?_⟩
  exact (h output hmem out (mem_of_find?_eq_some hout) hpayable hrecipient.symm).symm

variable {txns : AssocMap ℤ Txn} {txn : Txn} {seqNo : ℤ} {cache : SourceCache}

theorem getReceiptInfo_own (hlow : -2 ^ 31 ≤ seqNo) (hhigh : seqNo < 2 ^ 31)
    (htxn : txns.lookup seqNo = some txn) (hone : OneAmount txn.outputs)
    (hmem : output ∈ txn.outputs) (hpayable : Payable output.recipient)
    (hsource : toSource output.recipient seqNo = some source) :
    getReceiptInfo txns source = some ⟨source, output.recipient, output.amount, txn.extra⟩ := by
  obtain ⟨out, hfind, hamount⟩ := hone.find hmem hpayable
  have hread := hpayable.fromSource hlow hhigh hsource
  simp [getReceiptInfo, hread, htxn, hfind, hamount]

theorem getSourceInfo_own {info : SourceInfo} (hlow : -2 ^ 31 ≤ seqNo) (hhigh : seqNo < 2 ^ 31)
    (htxn : txns.lookup seqNo = some txn) (hone : OneAmount txn.outputs)
    (hmem : output ∈ txn.outputs) (hsource : toSource output.recipient seqNo = some source)
    (hinfo : getSourceInfo txns source = some info) :
    info.paymentAddress = output.recipient ∧ info.amount = output.amount := by
  rw [getSourceInfo] at hinfo
  obtain ⟨⟨n, recipient⟩, hread, hinfo⟩ := Option.bind_eq_some_iff.mp hinfo
  obtain rfl := fromSource_seqNo hlow hhigh hsource hread
  obtain rfl := fromSource_toSource hsource hread
  have hpayable := payable_of_fromSource hsource hread
  obtain ⟨out, hfind, hamount⟩ := hone.find hmem hpayable
  simp only [htxn, Option.bind_eq_bind, Option.bind_some, hfind, Option.some.injEq] at hinfo
  subst hinfo
  exact ⟨rfl, hamount⟩

theorem shortReceipts_show {outputs : List Output} {receipts : List ShortReceiptInfo}
    (h : outputs.mapM (shortReceipt seqNo) = .ok receipts) :
    receipts.map (fun r => (⟨r.recipient, r.amount⟩ : Output)) = outputs := by
  rw [Outcome.mapM_eq_ok_iff] at h
  induction outputs generalizing receipts with
  | nil => rw [map_eq_nil_iff.mp h.symm, map_nil]
  | cons output rest ih =>
    cases receipts with
    | nil => cases h
    | cons receipt receipts =>
      rw [map_cons, map_cons, List.cons.injEq] at h
      obtain ⟨source, -, hpure⟩ := Outcome.bind_eq_ok_iff.mp h.1
      cases hpure
      rw [map_cons, ih h.2]

/-! ### The sources of the caches -/

theorem mem_sources_of_addSource {cache' : SourceCache} {amount : UInt64}
    (hadd : addSource cache paymentAddress seqNo amount = some (source, cache'))
    (h : other ∈ getSourcesByPaymentAddress cache' address) :
    other ∈ getSourcesByPaymentAddress cache address ∨ other = source := by
  obtain ⟨made, -, heq⟩ := Option.map_eq_some_iff.mp hadd
  cases heq
  rw [getSourcesByPaymentAddress] at h
  by_cases haddress : address = paymentAddress
  · rw [haddress, AList.lookup_insert, Option.getD_some, mem_append, mem_singleton] at h
    rwa [haddress]
  · rw [AList.lookup_insert_ne haddress] at h
    exact .inl h

theorem mem_sources_of_removeSource
    (h : other ∈ getSourcesByPaymentAddress (removeSource cache source) address) :
    other ∈ getSourcesByPaymentAddress cache address := by
  rw [removeSource] at h
  split at h
  · rename_i n paymentAddress hread
    rw [getSourcesByPaymentAddress] at h
    by_cases haddress : address = paymentAddress
    · subst haddress
      dsimp only at h
      split at h
      · rw [AList.lookup_insert, Option.getD_some] at h
        exact mem_of_mem_filter h
      · rw [AList.lookup_erase] at h
        cases h
    · dsimp only at h
      split at h
      · rwa [AList.lookup_insert_ne haddress] at h
      · rwa [AList.lookup_erase_ne haddress] at h
  · exact h

theorem mem_sources_of_processInputs {inputs : List String}
    (h : other ∈ getSourcesByPaymentAddress (processInputs cache inputs) address) :
    other ∈ getSourcesByPaymentAddress cache address := by
  induction inputs generalizing cache with
  | nil => exact h
  | cons input rest ih => exact mem_sources_of_removeSource (ih h)

/-- A receipt for each output, with its own recipient and amount. -/
def Shows (infos : List ReceiptInfo) (outputs : List Output) : Prop :=
  infos.map (fun info => (⟨info.recipient, info.amount⟩ : Output)) = outputs

theorem processOutputs_shows {outputs : List Output} (hlow : -2 ^ 31 ≤ seqNo)
    (hhigh : seqNo < 2 ^ 31) (htxn : txns.lookup seqNo = some txn) (hone : OneAmount txn.outputs)
    (hmem : ∀ output ∈ outputs, output ∈ txn.outputs)
    (hpayable : ∀ output ∈ outputs, Payable output.recipient) :
    ∃ cache' infos, processOutputs txns seqNo cache outputs = (cache', some infos) ∧
      Shows infos outputs ∧
      ∀ address other, other ∈ getSourcesByPaymentAddress cache' address →
        other ∈ getSourcesByPaymentAddress cache address ∨ Makes seqNo outputs other := by
  induction outputs generalizing cache with
  | nil => exact ⟨cache, [], rfl, rfl, fun _ _ hother => .inl hother⟩
  | cons output rest ih =>
    obtain ⟨source, hsource⟩ := (hpayable output mem_cons_self).exists_source seqNo
    have hinfo := getReceiptInfo_own hlow hhigh htxn hone (hmem output mem_cons_self)
      (hpayable output mem_cons_self) hsource
    obtain ⟨next, hadd⟩ : ∃ next,
        addSource cache output.recipient seqNo output.amount = some (source, next) := by
      rw [addSource, hsource]
      exact ⟨_, rfl⟩
    obtain ⟨cache', infos, hrun, hshows, hsources⟩ := @ih next
      (fun other hother => hmem other (mem_cons_of_mem _ hother))
      (fun other hother => hpayable other (mem_cons_of_mem _ hother))
    refine ⟨cache', ⟨source, output.recipient, output.amount, txn.extra⟩ :: infos, ?_, ?_, ?_⟩
    · rw [processOutputs, hadd]
      dsimp only
      rw [hinfo]
      dsimp only
      rw [hrun]
      rfl
    · rw [Shows, map_cons, hshows]
    · intro address other hother
      rw [makes_cons]
      rcases hsources address other hother with hother | hother
      · rcases mem_sources_of_addSource hadd hother with hother | rfl
        · exact .inl hother
        · exact .inr (.inl hsource)
      · exact .inr (.inr hother)

theorem mem_sources_of_mintOutputs {outputs : List Output}
    (h : other ∈ getSourcesByPaymentAddress (mintOutputs seqNo cache outputs) address) :
    other ∈ getSourcesByPaymentAddress cache address ∨ Makes seqNo outputs other := by
  induction outputs generalizing cache with
  | nil => exact .inl h
  | cons output rest ih =>
    rw [mintOutputs, foldl_cons] at h
    rw [makes_cons]
    cases hadd : addSource cache output.recipient seqNo output.amount with
    | none =>
      rw [hadd] at h
      rcases ih h with hother | hother
      · exact .inl hother
      · exact .inr (.inr hother)
    | some made =>
      obtain ⟨source, next⟩ := made
      rw [hadd] at h
      rcases ih h with hother | hother
      · rcases mem_sources_of_addSource hadd hother with hother | rfl
        · exact .inl hother
        · obtain ⟨made, hmade, heq⟩ := Option.map_eq_some_iff.mp hadd
          cases heq
          exact .inr (.inl hmade)
      · exact .inr (.inr hother)

/-! ### Steps -/

namespace PayState

/-- The payment that a completion carries out: its inputs, outputs and number. -/
def processes (ec : ErrorCode) (paymentAddresses : List String) :
    Pending → Option (List String × List Output × ℤ)
  | .payment inputs outputs ecExistance totalBalance totalPayments seqNo =>
    if ec = .success ∧ ecExistance = .success ∧ totalPayments ≤ totalBalance then
      some (inputs, outputs, seqNo)
    else none
  | .fees inputs outputs seqNo =>
    if ec = .success ∧ checkInputs inputs paymentAddresses then some (inputs, outputs, seqNo)
    else none
  | .mint _ _ | .listForPayment _ _ _ | .refusal => none

theorem complete_of_processes {world : PayWorld} {s : PayState} {ec : ErrorCode}
    {paymentAddresses : List String} {pending : Pending} {inputs : List String}
    {outputs : List Output} {n : ℤ}
    (h : processes ec paymentAddresses pending = some (inputs, outputs, n)) :
    s.complete world ec paymentAddresses pending = s.processPayment inputs outputs n := by
  cases pending with
  | payment inputs' outputs' ecExistance totalBalance totalPayments m =>
    rw [processes] at h
    split at h
    · rename_i hall
      cases h
      exact if_pos hall
    · cases h
  | fees inputs' outputs' m =>
    rw [processes] at h
    split at h
    · rename_i hall
      cases h
      rw [complete, completeFees, if_neg (not_not.mpr hall.1), if_neg (not_not.mpr hall.2)]
    · cases h
  | mint outputs' extra => cases h
  | listForPayment inputs' outputs' extra => cases h
  | refusal => cases h

/-- A completion that carries out no payment and is neither a minting nor a new payment does
nothing. -/
theorem complete_of_idle {world : PayWorld} {s : PayState} {ec : ErrorCode}
    {paymentAddresses : List String} {pending : Pending}
    (h : processes ec paymentAddresses pending = none) (hn : pending.seqNo.isSome) :
    (s.complete world ec paymentAddresses pending).2 = s := by
  cases pending with
  | payment inputs outputs ecExistance totalBalance totalPayments m =>
    rw [processes] at h
    split at h
    · cases h
    · rename_i hnot
      rw [complete, completePayment, if_neg hnot]
  | fees inputs outputs m =>
    rw [processes] at h
    split at h
    · cases h
    · rename_i hnot
      rw [complete, completeFees]
      split
      · rfl
      · rename_i hec
        rw [if_pos (fun hcheck => hnot ⟨not_not.mp hec, hcheck⟩)]
  | mint outputs extra => cases hn
  | listForPayment inputs outputs extra => cases hn
  | refusal => cases hn

/-- What is asked of a completion: a number that is new, and outputs to addresses that are read
back, of which those to one address do not differ. -/
def CompletesReportably (s : PayState) (ec : ErrorCode) (paymentAddresses : List String)
    (pending : Pending) : Prop :=
  match pending with
  | .mint outputs _ => ec = .success → s.idsCounter < 2 ^ 32 ∧ OneAmount outputs
  | .listForPayment _ _ _ => ec = .success → s.idsCounter < 2 ^ 32
  | .payment _ _ _ _ _ _ | .fees _ _ _ =>
    ∀ paid ∈ processes ec paymentAddresses pending,
      (∀ output ∈ paid.2.1, Payable output.recipient) ∧ OneAmount paid.2.1
  | .refusal => True

def Reportable (s : PayState) : PayCall → Prop
  | .buildMintReq _ _ => True
  | .buildPaymentReq _ _ _ => True
  | .addRequestFees _ _ _ _ => s.idsCounter < 2 ^ 32
  | .complete i ec paymentAddresses =>
    ∀ pending, s.pending[i]? = some pending → s.CompletesReportably ec paymentAddresses pending

instance (s : PayState) (ec : ErrorCode) (paymentAddresses : List String) :
    (pending : Pending) → Decidable (s.CompletesReportably ec paymentAddresses pending)
  | .mint _ _ => inferInstanceAs (Decidable (_ → _))
  | .listForPayment _ _ _ => inferInstanceAs (Decidable (_ → _))
  | .payment _ _ _ _ _ _ => inferInstanceAs (Decidable (∀ paid ∈ processes _ _ _, _ ∧ _))
  | .fees _ _ _ => inferInstanceAs (Decidable (∀ paid ∈ processes _ _ _, _ ∧ _))
  | .refusal => inferInstanceAs (Decidable True)

instance (s : PayState) : (call : PayCall) → Decidable (s.Reportable call)
  | .buildMintReq _ _ => inferInstanceAs (Decidable True)
  | .buildPaymentReq _ _ _ => inferInstanceAs (Decidable True)
  | .addRequestFees _ _ _ _ => inferInstanceAs (Decidable (_ < _))
  | .complete i ec paymentAddresses =>
    inferInstanceAs (Decidable (∀ pending ∈ s.pending[i]?,
      s.CompletesReportably ec paymentAddresses pending))

/-- The sources of the caches are of recorded outputs, and what is reported of a source is what
each output that it stands for says. -/
def SourcesShown (s : PayState) : Prop :=
  ∀ address, ∀ source ∈ getSourcesByPaymentAddress s.cache address,
    ∃ n txn, s.txns.lookup n = some txn ∧ Makes n txn.outputs source ∧
      ∀ output ∈ txn.outputs, toSource output.recipient n = some source →
        ∀ info, getSourceInfo s.txns source = some info →
          info.paymentAddress = output.recipient ∧ info.amount = output.amount

/-- A completion that carries out a payment processes its outputs, and the receipts show them. -/
def ReceiptsShown (s : PayState) : PayCall → Prop
  | .complete i ec paymentAddresses =>
    ∀ pending inputs outputs n, s.pending[i]? = some pending →
      processes ec paymentAddresses pending = some (inputs, outputs, n) →
      ∃ cache infos, processOutputs s.txns n (processInputs s.cache inputs) outputs =
        (cache, some infos) ∧ Shows infos outputs
  | .buildMintReq _ _ | .buildPaymentReq _ _ _ | .addRequestFees _ _ _ _ => True

/-- What a verified receipt shows is what its transaction says. -/
def VerificationsShown (s : PayState) : Prop :=
  ∀ receipt info, getReceiptVerificationInfo s.txns receipt = .ok (some info) →
    ∃ n txn, s.txns.lookup n = some txn ∧
      info.receipts.map (fun r => (⟨r.recipient, r.amount⟩ : Output)) = txn.outputs

/-- Numbers are new, waiting payments are recorded, and each source is of a recorded output. -/
structure Kept (s : PayState) : Prop where
  bounded : s.idsCounter ≤ 2 ^ 32
  issued : ∀ n ∈ seqNos s.pending, s.Issued n
  recorded : ∀ pending ∈ s.pending, pending.Recorded s.txns
  made : ∀ address, ∀ source ∈ getSourcesByPaymentAddress s.cache address,
    ∃ n txn, s.Issued n ∧ s.txns.lookup n = some txn ∧ OneAmount txn.outputs ∧
      Makes n txn.outputs source

section Kept

variable {s : PayState} {n : ℤ} {pending : Pending} {inputs paymentAddresses : List String}
  {outputs : List Output} {ec : ErrorCode}

theorem not_issued_next (hcount : s.idsCounter < 2 ^ 32) :
    ¬ s.Issued (asI32 (s.idsCounter + 1)) := by
  rintro ⟨k, hk, hle, he⟩
  have hsame := asI32_injective (Nat.succ_pos s.idsCounter) hcount hk (by omega) he
  omega

theorem Issued.bounds (h : s.Issued n) : -2 ^ 31 ≤ n ∧ n < 2 ^ 31 := by
  obtain ⟨k, -, -, rfl⟩ := h
  exact asI32_bounds k

theorem Kept.sourcesShown (h : s.Kept) : s.SourcesShown := by
  intro address source hsource
  obtain ⟨n, txn, hissued, htxn, hone, hmakes⟩ := h.made address source hsource
  refine ⟨n, txn, htxn, hmakes, ?_⟩
  intro output hmem hname info hinfo
  exact getSourceInfo_own hissued.bounds.1 hissued.bounds.2 htxn hone hmem hname hinfo

theorem Kept.panicked (h : s.Kept) : Kept { s with panicked := true } :=
  ⟨h.bounded, h.issued, h.recorded, h.made⟩

theorem Kept.drop (h : s.Kept) (i : ℕ) : Kept { s with pending := s.pending.eraseIdx i } :=
  ⟨h.bounded, fun n hn => h.issued n ((seqNos_eraseIdx s.pending i).subset hn),
    fun pending hpending =>
      h.recorded pending ((eraseIdx_sublist s.pending i).subset hpending),
    h.made⟩

theorem Kept.wait (h : s.Kept) (hn : pending.seqNo = none) (hrecorded : pending.Recorded s.txns) :
    (s.wait pending).Kept := by
  refine ⟨h.bounded, ?_, ?_, h.made⟩
  · rw [PayState.wait, seqNos_append, hn, Option.toList_none, append_nil]
    exact h.issued
  · intro other hother
    rcases mem_append.mp hother with hother | hother
    · exact h.recorded other hother
    · rw [mem_singleton.mp hother]
      exact hrecorded

theorem Kept.addTxn (h : s.Kept) (hcount : s.idsCounter < 2 ^ 32) (inputs : List String)
    (outputs : List Output) (extra : Option String) : (s.addTxn inputs outputs extra).2.Kept := by
  refine ⟨hcount, fun n hn => (h.issued n hn).addTxn inputs outputs extra, ?_, ?_⟩
  · intro pending hpending
    refine (h.recorded pending hpending).insert (fun hn => ?_)
    exact not_issued_next hcount (h.issued _ (mem_seqNos hpending hn))
  · intro address source hsource
    obtain ⟨n, txn, hissued, htxn, hone, hmakes⟩ := h.made address source hsource
    refine ⟨n, txn, hissued.addTxn inputs outputs extra, ?_, hone, hmakes⟩
    have hother : n ≠ asI32 (s.idsCounter + 1) := by
      rintro rfl
      exact not_issued_next hcount hissued
    exact (AList.lookup_insert_ne hother).trans htxn

theorem Kept.waitNumbered {extra : Option String} (h : s.Kept) (hcount : s.idsCounter < 2 ^ 32)
    (hn : pending.seqNo = some (asI32 (s.idsCounter + 1)))
    (hrecorded : pending.Recorded (s.addTxn inputs outputs extra).2.txns) :
    ((s.addTxn inputs outputs extra).2.wait pending).Kept := by
  have hadd := h.addTxn hcount inputs outputs extra
  refine ⟨hadd.bounded, ?_, ?_, hadd.made⟩
  · intro n hmem
    rw [PayState.wait, seqNos_append, hn, mem_append] at hmem
    rcases hmem with hmem | hmem
    · exact hadd.issued n hmem
    · rw [mem_singleton.mp hmem]
      exact issued_next s inputs outputs extra
  · intro other hother
    rcases mem_append.mp hother with hother | hother
    · exact hadd.recorded other hother
    · rw [mem_singleton.mp hother]
      exact hrecorded

theorem Kept.mint (extra : Option String) (h : s.Kept) (hcount : s.idsCounter < 2 ^ 32)
    (hone : OneAmount outputs) :
    Kept { (s.addTxn [] outputs extra).2 with
      cache := mintOutputs (asI32 (s.idsCounter + 1)) s.cache outputs
      minted := s.minted + totalAmount outputs } := by
  have hadd := h.addTxn hcount [] outputs extra
  refine ⟨hadd.bounded, hadd.issued, hadd.recorded, ?_⟩
  intro address source hsource
  rcases mem_sources_of_mintOutputs hsource with hold | hmakes
  · exact hadd.made address source hold
  · exact ⟨_, ⟨[], outputs, extra⟩, issued_next s [] outputs extra, AList.lookup_insert _, hone,
      hmakes⟩

theorem Kept.process (h : s.Kept) (hissued : s.Issued n) {extra : Option String}
    (htxn : s.txns.lookup n = some ⟨inputs, outputs, extra⟩)
    (hpayable : ∀ output ∈ outputs, Payable output.recipient) (hone : OneAmount outputs) :
    (∃ cache infos, processOutputs s.txns n (processInputs s.cache inputs) outputs =
        (cache, some infos) ∧ Shows infos outputs) ∧
      (s.processPayment inputs outputs n).2.Kept := by
  obtain ⟨cache, infos, hrun, hshows, hsources⟩ := @processOutputs_shows _ _ _
    (processInputs s.cache inputs) _ hissued.bounds.1 hissued.bounds.2 htxn hone
    (fun output hmem => hmem) hpayable
  refine ⟨⟨cache, infos, hrun, hshows⟩, ?_⟩
  rw [processPayment, hrun]
  refine ⟨h.bounded, h.issued, h.recorded, ?_⟩
  intro address source hsource
  rcases hsources address source hsource with hold | hmakes
  · exact h.made address source (mem_sources_of_processInputs hold)
  · exact ⟨n, _, hissued, htxn, hone, hmakes⟩

theorem addRequestFees_kept (world : PayWorld) (reqJson : String) (inputs : List String)
    (outputs : List Output) (extra : Option String) (h : s.Kept)
    (hcount : s.idsCounter < 2 ^ 32) :
    (s.addRequestFees world reqJson inputs outputs extra).2.Kept := by
  unfold addRequestFees
  split
  · exact h
  · dsimp only
    split
    · exact h.wait rfl trivial
    · split
      · rename_i e _
        exact e.elim
      · exact h.panicked
      · split
        · split
          · exact h
          · exact h.waitNumbered hcount rfl ⟨extra, AList.lookup_insert _⟩
        · exact h.wait rfl trivial

theorem completeListForPayment_kept (world : PayWorld) (inputs : List String)
    (outputs : List Output) (extra : Option String) (paymentAddresses : List String) (h : s.Kept)
    (hcount : ec = .success → s.idsCounter < 2 ^ 32) :
    (s.completeListForPayment world inputs outputs extra ec paymentAddresses).2.Kept := by
  unfold completeListForPayment
  split
  · exact h
  · rename_i hec
    split
    · exact h
    · rename_i hcheck
      split
      · rename_i e _
        exact e.elim
      · exact h.panicked
      · exact h.waitNumbered (hcount (not_not.mp hec)) rfl
          ⟨⟨extra, AList.lookup_insert _⟩, fromSource_of_checkInputs (not_not.mp hcheck)⟩

theorem Kept.recorded_processes (h : s.Kept) {i : ℕ} (hpending : s.pending[i]? = some pending)
    (hprocesses : processes ec paymentAddresses pending = some (inputs, outputs, n)) :
    s.Issued n ∧ ∃ extra, s.txns.lookup n = some ⟨inputs, outputs, extra⟩ := by
  have hmem := mem_of_getElem? hpending
  have hrecorded := h.recorded pending hmem
  cases pending with
  | payment inputs' outputs' ecExistance totalBalance totalPayments m =>
    rw [processes] at hprocesses
    split at hprocesses
    · cases hprocesses
      exact ⟨h.issued _ (mem_seqNos hmem rfl), hrecorded.1⟩
    · cases hprocesses
  | fees inputs' outputs' m =>
    rw [processes] at hprocesses
    split at hprocesses
    · cases hprocesses
      exact ⟨h.issued _ (mem_seqNos hmem rfl), hrecorded⟩
    · cases hprocesses
  | mint outputs' extra => cases hprocesses
  | listForPayment inputs' outputs' extra => cases hprocesses
  | refusal => cases hprocesses

theorem CompletesReportably.process (h : s.CompletesReportably ec paymentAddresses pending)
    (hprocesses : processes ec paymentAddresses pending = some (inputs, outputs, n)) :
    (∀ output ∈ outputs, Payable output.recipient) ∧ OneAmount outputs := by
  cases pending with
  | payment => exact h _ hprocesses
  | fees => exact h _ hprocesses
  | mint => cases hprocesses
  | listForPayment => cases hprocesses
  | refusal => cases hprocesses

theorem Kept.receiptsShown (h : s.Kept) {call : PayCall} (hcond : s.Reportable call) :
    s.ReceiptsShown call := by
  cases call with
  | complete i ec paymentAddresses =>
    intro pending inputs outputs n hpending hprocesses
    obtain ⟨hpayable, hone⟩ := (hcond pending hpending).process hprocesses
    obtain ⟨hissued, extra, htxn⟩ := h.recorded_processes hpending hprocesses
    exact (h.process hissued htxn hpayable hone).1
  | buildMintReq outputs extra => trivial
  | buildPaymentReq inputs outputs extra => trivial
  | addRequestFees reqJson inputs outputs extra => trivial

theorem complete_kept (world : PayWorld) {i : ℕ} (h : s.Kept)
    (hpending : s.pending[i]? = some pending)
    (hcond : s.CompletesReportably ec paymentAddresses pending) :
    ({ s with pending := s.pending.eraseIdx i }.complete world ec paymentAddresses
      pending).2.Kept := by
  have hdrop := h.drop i
  cases hprocesses : processes ec paymentAddresses pending with
  | some p =>
    obtain ⟨inputs, outputs, n⟩ := p
    obtain ⟨hpayable, hone⟩ := hcond.process hprocesses
    obtain ⟨hissued, extra, htxn⟩ := h.recorded_processes hpending hprocesses
    rw [complete_of_processes hprocesses]
    exact (hdrop.process hissued htxn hpayable hone).2
  | none =>
    cases pending with
    | mint outputs extra =>
      rw [complete, completeMint]
      split
      · rename_i hec
        obtain ⟨hcount, hone⟩ := hcond hec
        exact hdrop.mint extra hcount hone
      · exact hdrop
    | listForPayment inputs outputs extra =>
      exact completeListForPayment_kept world inputs outputs extra paymentAddresses hdrop hcond
    | payment inputs outputs ecExistance totalBalance totalPayments n =>
      rw [complete_of_idle hprocesses rfl]
      exact hdrop
    | fees inputs outputs n =>
      rw [complete_of_idle hprocesses rfl]
      exact hdrop
    | refusal => exact hdrop

theorem step_kept (world : PayWorld) {call : PayCall} (h : s.Kept) (hcond : s.Reportable call) :
    ((payMachine world).step call s).2.Kept := by
  unfold payMachine
  dsimp only
  split
  · exact h
  · cases call with
    | buildMintReq outputs extra => exact h.wait rfl trivial
    | buildPaymentReq inputs outputs extra => exact h.wait rfl trivial
    | addRequestFees reqJson inputs outputs extra =>
      exact addRequestFees_kept world reqJson inputs outputs extra h hcond
    | complete i ec paymentAddresses =>
      dsimp only
      split
      · exact h
      · rename_i pending hpending
        exact complete_kept world h hpending (hcond pending hpending)

theorem verificationsShown (s : PayState) : s.VerificationsShown := by
  intro receipt info hinfo
  rw [getReceiptVerificationInfo] at hinfo
  split at hinfo
  · cases hinfo
  · rename_i n recipient hread
    split at hinfo
    · cases hinfo
    · rename_i txn htxn
      refine ⟨n, txn, htxn, ?_⟩
      obtain ⟨receipts, hreceipts, hpure⟩ := Outcome.bind_eq_ok_iff.mp hinfo
      cases hpure
      exact shortReceipts_show hreceipts

theorem initial_kept (feesByCode : AssocMap String UInt64) : (initial feesByCode).Kept := by
  refine ⟨by simp [initial], by simp [initial, seqNos], by simp [initial], ?_⟩
  intro address source hsource
  cases hsource

end Kept

end PayState

open PayState

/-- A source is read back exactly when its address has no underscore in its last part; different
addresses or numbers have different sources; and in a run whose completions have new numbers, and
outputs to addresses that are read back of which those to one address do not differ, every payment
is carried out and every report shows its own output. -/
theorem reports_show_outputs (world : PayWorld) (feesByCode : AssocMap String UInt64)
    (calls : List PayCall) :
    (∀ paymentAddress seqNo source, -2 ^ 31 ≤ seqNo → seqNo < 2 ^ 31 →
      toSource paymentAddress seqNo = some source →
        (fromSource source = some (seqNo, paymentAddress) ↔ Payable paymentAddress)) ∧
    (∀ paymentAddress seqNo paymentAddress' seqNo' source,
      toSource paymentAddress seqNo = some source → toSource paymentAddress' seqNo' = some source →
        paymentAddress = paymentAddress' ∧ seqNo = seqNo') ∧
    ((payMachine world).Along Reportable (initial feesByCode) calls →
      (payMachine world).Along (fun s call => s.ReceiptsShown call ∧
          ((payMachine world).step call s).2.SourcesShown ∧
          ((payMachine world).step call s).2.VerificationsShown)
        (initial feesByCode) calls) := by
  refine ⟨?_, ?_, ?_⟩
  · intro paymentAddress seqNo source hlow hhigh h
    exact fromSource_toSource_iff hlow hhigh h
  · intro paymentAddress seqNo paymentAddress' seqNo' source h h'
    obtain ⟨haddress, hnumber⟩ := toSource_injective h h'
    exact ⟨haddress, Numerals.toString_injective hnumber⟩
  · intro h
    refine @Machine.along_of_along _ _ _ _ _ _ Kept ?_ _ _ (initial_kept feesByCode) h
    intro s call hkept hcond
    have hnext := step_kept world hkept hcond
    exact ⟨⟨hkept.receiptsShown hcond, hnext.sourcesShown, verificationsShown _⟩, hnext⟩

/-- Ten tokens are minted for one address, which pays two outputs of five to another one. -/
theorem reports_show_outputs_twice :
    (payMachine ⟨fun _ => none, true⟩).Along (fun s call => s.ReceiptsShown call ∧
        ((payMachine ⟨fun _ => none, true⟩).step call s).2.SourcesShown ∧
        ((payMachine ⟨fun _ => none, true⟩).step call s).2.VerificationsShown) (initial ∅)
      [.buildMintReq [⟨"pay:null:a", 10⟩] none, .complete 0 .success [],
        .buildPaymentReq ["pay:null:1_a"] [⟨"pay:null:b", 5⟩, ⟨"pay:null:b", 5⟩] none,
        .complete 0 .success ["pay:null:a"], .complete 0 .success []] :=
  (reports_show_outputs ⟨fun _ => none, true⟩ ∅ _).2.2 (by decide +kernel)

/-- An address with an underscore is not read back, and paying to it aborts; of two outputs to one
address, the receipt of the second shows the amount of the first. -/
theorem underscore_aborts :
    (toSource "pay:null:b_c" 1).bind fromSource = none ∧
      ((payMachine ⟨fun _ => none, true⟩).run
        [.buildMintReq [⟨"pay:null:a", 10⟩] none, .complete 0 .success [],
          .buildPaymentReq ["pay:null:1_a"] [⟨"pay:null:b_c", 10⟩] none,
          .complete 0 .success ["pay:null:a"], .complete 0 .success []] (initial ∅)).panicked =
        true ∧
      (processOutputs (AList.insert 1 ⟨[], [⟨"pay:null:b", 3⟩, ⟨"pay:null:b", 7⟩], none⟩ ∅) 1
        ⟨∅, ∅⟩ [⟨"pay:null:b", 3⟩, ⟨"pay:null:b", 7⟩]).2 =
        some [⟨"pay:null:1_b", "pay:null:b", 3, none⟩,
          ⟨"pay:null:1_b", "pay:null:b", 3, none⟩] := by
  decide +kernel

end IndySdk.NullPay
