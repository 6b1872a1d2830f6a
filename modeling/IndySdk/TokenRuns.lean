import IndySdk.TokenConservation

/-!
# Runs of the payment method

Every waiting payment has a transaction number of its own that names no source yet, so the sources
of its outputs are new. What its checks have found need not hold any more when it is completed; a
run in which it does, and in which no completion names a source twice, conserves the tokens.
-/

namespace IndySdk.NullPay

open List

namespace PayState

theorem asI32_bounds (n : ℕ) : -2 ^ 31 ≤ asI32 n ∧ asI32 n < 2 ^ 31 := by
  unfold asI32
  split
  · omega
  · omega

theorem asI32_injective {m n : ℕ} (hm : 0 < m) (hm' : m ≤ 2 ^ 32) (hn : 0 < n) (hn' : n ≤ 2 ^ 32)
    (h : asI32 m = asI32 n) : m = n := by
  unfold asI32 at h
  split at h
  · split at h
    · omega
    · omega
  · split at h
    · omega
    · omega

end PayState

namespace Pending

/-- The transaction number of a call that moves tokens when it is completed. -/
def seqNo : Pending → Option ℤ
  | .payment _ _ _ _ _ seqNo => some seqNo
  | .fees _ _ seqNo => some seqNo
  | _ => none

def Recorded (txns : AssocMap ℤ Txn) : Pending → Prop
  | .payment inputs outputs _ _ _ seqNo =>
    (∃ extra, txns.lookup seqNo = some ⟨inputs, outputs, extra⟩) ∧
      ∀ input ∈ inputs, (fromSource input).isSome
  | .fees inputs outputs seqNo => ∃ extra, txns.lookup seqNo = some ⟨inputs, outputs, extra⟩
  | _ => True

theorem Recorded.insert {txns : AssocMap ℤ Txn} {pending : Pending} {n : ℤ} {txn : Txn}
    (h : pending.Recorded txns) (hne : pending.seqNo ≠ some n) :
    pending.Recorded (txns.insert n txn) := by
  cases pending with
  | payment inputs outputs ecExistance totalBalance totalPayments seqNo =>
    obtain ⟨⟨extra, hlookup⟩, hread⟩ := h
    have hother : seqNo ≠ n := fun he => hne (congrArg some he)
    exact ⟨⟨extra, by rw [AList.lookup_insert_ne hother, hlookup]⟩, hread⟩
  | fees inputs outputs seqNo =>
    obtain ⟨extra, hlookup⟩ := h
    have hother : seqNo ≠ n := fun he => hne (congrArg some he)
    exact ⟨extra, by rw [AList.lookup_insert_ne hother, hlookup]⟩
  | _ => trivial

end Pending

def seqNos (pending : List Pending) : List ℤ := pending.filterMap Pending.seqNo

theorem mem_seqNos {pending : List Pending} {p : Pending} {n : ℤ} (hp : p ∈ pending)
    (hn : p.seqNo = some n) : n ∈ seqNos pending :=
  mem_filterMap.mpr ⟨p, hp, hn⟩

theorem seqNos_append (pending : List Pending) (p : Pending) :
    seqNos (pending ++ [p]) = seqNos pending ++ p.seqNo.toList := by
  cases hp : p.seqNo with
  | none => simp [seqNos, filterMap_append, hp]
  | some n => simp [seqNos, filterMap_append, hp]

theorem seqNos_eraseIdx (pending : List Pending) (i : ℕ) :
    (seqNos (pending.eraseIdx i)).Sublist (seqNos pending) :=
  (eraseIdx_sublist pending i).filterMap Pending.seqNo

theorem not_mem_seqNos_eraseIdx {pending : List Pending} {i : ℕ} {p : Pending} {n : ℤ}
    (hnodup : (seqNos pending).Nodup) (hp : pending[i]? = some p) (hn : p.seqNo = some n) :
    n ∉ seqNos (pending.eraseIdx i) := by
  obtain ⟨hi, rfl⟩ := List.getElem?_eq_some_iff.mp hp
  have hperm : (seqNos (pending[i] :: pending.eraseIdx i)).Perm (seqNos pending) :=
    (getElem_cons_eraseIdx_perm hi).filterMap Pending.seqNo
  have hcons : seqNos (pending[i] :: pending.eraseIdx i) =
      n :: seqNos (pending.eraseIdx i) := by
    rw [seqNos, filterMap_cons, hn]
    rfl
  rw [hcons] at hperm
  exact (nodup_cons.mp (hperm.nodup_iff.mpr hnodup)).1

namespace PayState

def Issued (s : PayState) (n : ℤ) : Prop := ∃ k, 0 < k ∧ k ≤ s.idsCounter ∧ n = asI32 k

structure Inv (s : PayState) : Prop where
  bounded : s.idsCounter ≤ 2 ^ 32
  consistent : s.cache.Consistent
  covered : s.cache.total ≤ s.minted
  issued : ∀ n ∈ seqNos s.pending, s.Issued n
  distinct : (seqNos s.pending).Nodup
  recorded : ∀ pending ∈ s.pending, pending.Recorded s.txns
  numbered : ∀ source, source ∈ s.cache.balances ∨ source ∈ s.spent →
    ∃ paymentAddress n, toSource paymentAddress n = some source ∧ s.Issued n ∧
      n ∉ seqNos s.pending
  spentOnce : s.spent.Nodup
  gone : ∀ source ∈ s.spent, source ∉ s.cache.balances

variable {s : PayState} {inputs : List String} {outputs : List Output}

theorem Inv.panicked (h : s.Inv) : Inv { s with panicked := true } :=
  ⟨h.bounded, h.consistent, h.covered, h.issued, h.distinct, h.recorded, h.numbered, h.spentOnce,
    h.gone⟩

theorem Inv.drop (h : s.Inv) (i : ℕ) : Inv { s with pending := s.pending.eraseIdx i } := by
  have hsub := seqNos_eraseIdx s.pending i
  refine ⟨h.bounded, h.consistent, h.covered, fun n hn => h.issued n (hsub.subset hn),
    h.distinct.sublist hsub, ?_, ?_, h.spentOnce, h.gone⟩
  · intro pending hpending
    exact h.recorded pending ((eraseIdx_sublist s.pending i).subset hpending)
  · intro source hsource
    obtain ⟨paymentAddress, n, hname, hissued, hnot⟩ := h.numbered source hsource
    exact ⟨paymentAddress, n, hname, hissued, fun hn => hnot (hsub.subset hn)⟩

theorem Inv.wait {pending : Pending} (h : s.Inv) (hn : pending.seqNo = none)
    (hrecorded : pending.Recorded s.txns) : (s.wait pending).Inv := by
  have hsame : seqNos (s.wait pending).pending = seqNos s.pending := by
    rw [PayState.wait, seqNos_append, hn, Option.toList_none, append_nil]
  refine ⟨h.bounded, h.consistent, h.covered, by rw [hsame]; exact h.issued,
    by rw [hsame]; exact h.distinct, ?_, by rw [hsame]; exact h.numbered, h.spentOnce, h.gone⟩
  intro other hother
  obtain hother | hother := mem_append.mp hother
  · exact h.recorded other hother
  · rw [mem_singleton.mp hother]
    exact hrecorded

theorem Inv.next_new (h : s.Inv) (hcount : s.idsCounter < 2 ^ 32) :
    ¬ s.Issued (asI32 (s.idsCounter + 1)) := by
  rintro ⟨k, hk, hle, he⟩
  have := asI32_injective (Nat.succ_pos s.idsCounter) hcount hk (le_trans hle h.bounded) he
  omega

theorem Issued.addTxn {n : ℤ} (h : s.Issued n) (inputs : List String) (outputs : List Output)
    (extra : Option String) : (s.addTxn inputs outputs extra).2.Issued n := by
  obtain ⟨k, hk, hle, he⟩ := h
  exact ⟨k, hk, Nat.le_succ_of_le hle, he⟩

theorem issued_next (s : PayState) (inputs : List String) (outputs : List Output)
    (extra : Option String) :
    (s.addTxn inputs outputs extra).2.Issued (asI32 (s.idsCounter + 1)) :=
  ⟨s.idsCounter + 1, Nat.succ_pos _, le_refl _, rfl⟩

theorem Inv.addTxn (h : s.Inv) (hcount : s.idsCounter < 2 ^ 32) (inputs : List String)
    (outputs : List Output) (extra : Option String) : (s.addTxn inputs outputs extra).2.Inv := by
  refine ⟨hcount, h.consistent, h.covered,
    fun n hn => (h.issued n hn).addTxn inputs outputs extra, h.distinct, ?_, ?_, h.spentOnce,
    h.gone⟩
  · intro pending hpending
    apply (h.recorded pending hpending).insert
    intro hn
    exact h.next_new hcount (h.issued _ (mem_seqNos hpending hn))
  · intro source hsource
    obtain ⟨paymentAddress, n, hname, hissued, hnot⟩ := h.numbered source hsource
    exact ⟨paymentAddress, n, hname, hissued.addTxn inputs outputs extra, hnot⟩

theorem Inv.waitNumbered {pending : Pending} {extra : Option String} (h : s.Inv)
    (hcount : s.idsCounter < 2 ^ 32) (hn : pending.seqNo = some (asI32 (s.idsCounter + 1)))
    (hrecorded : pending.Recorded (s.addTxn inputs outputs extra).2.txns) :
    ((s.addTxn inputs outputs extra).2.wait pending).Inv := by
  have hadd := h.addTxn hcount inputs outputs extra
  have hnew := h.next_new hcount
  have hseqNos : seqNos ((s.addTxn inputs outputs extra).2.wait pending).pending =
      seqNos s.pending ++ [asI32 (s.idsCounter + 1)] := by
    rw [PayState.wait, seqNos_append, hn]
    rfl
  refine ⟨hadd.bounded, hadd.consistent, hadd.covered, ?_, ?_, ?_, ?_, hadd.spentOnce, hadd.gone⟩
  · rw [hseqNos]
    intro n hmem
    obtain hmem | hmem := mem_append.mp hmem
    · exact hadd.issued n hmem
    · rw [mem_singleton.mp hmem]
      exact issued_next s inputs outputs extra
  · rw [hseqNos]
    refine nodup_append.mpr ⟨h.distinct, nodup_singleton _, ?_⟩
    rintro n hmem m hm rfl
    rw [mem_singleton.mp hm] at hmem
    exact hnew (h.issued _ hmem)
  · intro other hother
    obtain hother | hother := mem_append.mp hother
    · exact hadd.recorded other hother
    · rw [mem_singleton.mp hother]
      exact hrecorded
  · intro source hsource
    obtain ⟨paymentAddress, n, hname, hissued, hnot⟩ := h.numbered source hsource
    refine ⟨paymentAddress, n, hname, hissued.addTxn inputs outputs extra, ?_⟩
    rw [hseqNos, mem_append, mem_singleton, not_or]
    refine ⟨hnot, ?_⟩
    rintro rfl
    exact hnew hissued

theorem Inv.not_makes {n : ℤ} (h : s.Inv) (hfree : ¬ s.Issued n ∨ n ∈ seqNos s.pending)
    {source : String} (hmakes : Makes n outputs source) :
    source ∉ s.cache.balances ∧ source ∉ s.spent := by
  rw [← not_or]
  intro hsource
  obtain ⟨output, _, hname⟩ := hmakes
  obtain ⟨paymentAddress, m, hname', hissued, hnot⟩ := h.numbered source hsource
  have he : n = m := Numerals.toString_injective (toSource_injective hname hname').2
  rw [he] at hfree
  obtain hfree | hfree := hfree
  · exact hfree hissued
  · exact hnot hfree

/-! ### Minting and paying -/

/-- What the checks are meant to ensure of a payment that is completed. -/
structure Spendable (cache : SourceCache) (inputs : List String) (outputs : List Output) :
    Prop where
  distinct : inputs.Nodup
  present : ∀ input ∈ inputs, input ∈ cache.balances
  enough : totalAmount outputs ≤ totalInputs cache inputs
  recipients : (outputs.map Output.recipient).Nodup
  payable : ∀ output ∈ outputs, Payable output.recipient

/-- No two outputs to payment addresses are to the same one. -/
def Mintable (outputs : List Output) : Prop :=
  ((outputs.filter (fun output => (parts output.recipient).length = 3)).map Output.recipient).Nodup

theorem spendable_iff {cache : SourceCache} :
    Spendable cache inputs outputs ↔ inputs.Nodup ∧ (∀ input ∈ inputs, input ∈ cache.balances) ∧
      totalAmount outputs ≤ totalInputs cache inputs ∧ (outputs.map Output.recipient).Nodup ∧
      ∀ output ∈ outputs, Payable output.recipient :=
  ⟨fun h => ⟨h.distinct, h.present, h.enough, h.recipients, h.payable⟩,
    fun h => ⟨h.1, h.2.1, h.2.2.1, h.2.2.2.1, h.2.2.2.2⟩⟩

instance (cache : SourceCache) (inputs : List String) (outputs : List Output) :
    Decidable (Spendable cache inputs outputs) :=
  decidable_of_iff _ spendable_iff.symm

instance (outputs : List Output) : Decidable (Mintable outputs) :=
  inferInstanceAs (Decidable (List.Nodup _))

theorem toSource_isSome (paymentAddress : String) (n : ℤ) :
    (toSource paymentAddress n).isSome = decide ((parts paymentAddress).length = 3) := by
  unfold toSource
  split
  · rename_i scheme method id hparts
    simp [hparts]
  · rename_i hparts
    symm
    rw [Option.isSome_none, decide_eq_false_iff_not, length_eq_three]
    rintro ⟨scheme, method, id, he⟩
    exact hparts scheme method id he

theorem Inv.mint (extra : Option String) (h : s.Inv) (hcount : s.idsCounter < 2 ^ 32)
    (hmintable : Mintable outputs) :
    Inv { (s.addTxn [] outputs extra).2 with
      cache := mintOutputs (asI32 (s.idsCounter + 1)) s.cache outputs
      minted := s.minted + totalAmount outputs } := by
  have hadd := h.addTxn hcount [] outputs extra
  have hnew := h.next_new hcount
  have hfresh : ∀ source, Makes (asI32 (s.idsCounter + 1)) outputs source →
      source ∉ s.cache.balances ∧ source ∉ s.spent :=
    fun source hmakes => h.not_makes (.inl hnew) hmakes
  obtain ⟨hconsistent, htotal, hiff⟩ := mintOutputs_spec h.consistent
    (by simpa only [toSource_isSome, Mintable] using hmintable)
    (fun source hmakes => (hfresh source hmakes).1)
  refine ⟨hadd.bounded, hconsistent, ?_, hadd.issued, hadd.distinct, hadd.recorded, ?_,
    h.spentOnce, ?_⟩
  · exact htotal.trans (Nat.add_le_add_right h.covered _)
  · rintro source (hsource | hsource)
    · obtain hold | ⟨output, _, hname⟩ := (hiff source).mp hsource
      · exact hadd.numbered source (.inl hold)
      · refine ⟨output.recipient, _, hname, issued_next s [] outputs extra, ?_⟩
        intro hmem
        exact hnew (h.issued _ hmem)
    · exact hadd.numbered source (.inr hsource)
  · intro source hsource hmem
    obtain hold | hmakes := (hiff source).mp hmem
    · exact h.gone source hsource hold
    · exact (hfresh source hmakes).2 hsource

/-- A completed payment takes its inputs out and puts the outputs in. -/
theorem Inv.pay {extra : Option String} {n : ℤ} (h : s.Inv) (hissued : s.Issued n)
    (hnot : n ∉ seqNos s.pending)
    (hfresh : ∀ source, Makes n outputs source → source ∉ s.cache.balances ∧ source ∉ s.spent)
    (htxn : s.txns.lookup n = some ⟨inputs, outputs, extra⟩)
    (hread : ∀ input ∈ inputs, (fromSource input).isSome)
    (hspendable : Spendable s.cache inputs outputs) :
    ∃ cache, s.processPayment inputs outputs n =
        (.paid inputs outputs, { s with cache := cache, spent := s.spent ++ inputs }) ∧
      Inv { s with cache := cache, spent := s.spent ++ inputs } ∧
      ∀ input ∈ inputs, input ∉ cache.balances := by
  obtain ⟨hbefore, hpaid, htaken⟩ :=
    processInputs_spec h.consistent hspendable.distinct hread hspendable.present
  have hbounds : -2 ^ 31 ≤ n ∧ n < 2 ^ 31 := by
    obtain ⟨k, _, _, rfl⟩ := hissued
    exact asI32_bounds k
  obtain ⟨cache, infos, hrun, hconsistent, htotal, hiff⟩ := processOutputs_spec hbefore
    hspendable.payable hspendable.recipients hbounds.1 hbounds.2 htxn (fun output hmem => hmem)
    (fun source hmakes hmem => (hfresh source hmakes).1 ((htaken source).mp hmem).1)
  have hgone : ∀ input ∈ inputs, input ∉ cache.balances := by
    intro input hinput hmem
    obtain hleft | hmakes := (hiff input).mp hmem
    · exact ((htaken input).mp hleft).2 hinput
    · exact (hfresh input hmakes).1 (hspendable.present input hinput)
  refine ⟨cache, ?_, ⟨h.bounded, hconsistent, ?_, h.issued, h.distinct, h.recorded, ?_, ?_, ?_⟩,
    hgone⟩
  · rw [processPayment, hrun]
  · have hcovered := h.covered
    have henough := hspendable.enough
    change cache.total ≤ s.minted
    omega
  · rintro source (hsource | hsource)
    · obtain hleft | ⟨output, _, hname⟩ := (hiff source).mp hsource
      · exact h.numbered source (.inl ((htaken source).mp hleft).1)
      · exact ⟨output.recipient, n, hname, hissued, hnot⟩
    · obtain hspent | hinput := mem_append.mp hsource
      · exact h.numbered source (.inr hspent)
      · exact h.numbered source (.inl (hspendable.present source hinput))
  · refine nodup_append.mpr ⟨h.spentOnce, hspendable.distinct, ?_⟩
    rintro source hspent other hinput rfl
    exact h.gone source hspent (hspendable.present source hinput)
  · intro source hsource
    obtain hspent | hinput := mem_append.mp hsource
    · intro hmem
      obtain hleft | hmakes := (hiff source).mp hmem
      · exact h.gone source hspent ((htaken source).mp hleft).1
      · exact (hfresh source hmakes).2 hspent
    · exact hgone source hinput

end PayState

/-! ### Steps -/

/-- What is asked of a step: nothing is made but by minting, a payment spends each of its inputs
once, and nothing else changes the caches. -/
structure Sound (s : PayState) (r : Report × PayState) : Prop where
  covered : r.2.cache.total ≤ r.2.minted
  listed : r.2.cache.Consistent
  consumed : ∀ inputs outputs, r.1 = .paid inputs outputs →
    inputs.Nodup ∧ (∀ source ∈ inputs, source ∈ s.cache.balances ∧ source ∉ r.2.cache.balances) ∧
      r.2.spent = s.spent ++ inputs ∧ r.2.spent.Nodup
  unchanged : (∀ inputs outputs, r.1 ≠ .paid inputs outputs) →
    (∀ outputs, r.1 ≠ .minted outputs) → r.2.cache = s.cache

namespace PayState

variable {s : PayState} {world : PayWorld}

/-- What a completion is given to do is sound when it does it. -/
def CompletesProperly (s : PayState) (ec : ErrorCode) (paymentAddresses : List String) :
    Pending → Prop
  | .mint outputs _ => ec = .success → s.idsCounter < 2 ^ 32 ∧ Mintable outputs
  | .listForPayment _ _ _ => ec = .success → s.idsCounter < 2 ^ 32
  | .payment inputs outputs ecExistance totalBalance totalPayments _ =>
    ec = .success → ecExistance = .success → totalPayments ≤ totalBalance →
      Spendable s.cache inputs outputs
  | .fees inputs outputs _ =>
    ec = .success → checkInputs inputs paymentAddresses → Spendable s.cache inputs outputs
  | .refusal => True

def Proper (s : PayState) : PayCall → Prop
  | .buildMintReq _ _ => True
  | .buildPaymentReq _ _ _ => True
  | .addRequestFees _ _ _ _ => s.idsCounter < 2 ^ 32
  | .complete i ec paymentAddresses =>
    ∀ pending, s.pending[i]? = some pending → s.CompletesProperly ec paymentAddresses pending

instance (s : PayState) (ec : ErrorCode) (paymentAddresses : List String) :
    (pending : Pending) → Decidable (s.CompletesProperly ec paymentAddresses pending)
  | .mint _ _ => inferInstanceAs (Decidable (_ → _))
  | .listForPayment _ _ _ => inferInstanceAs (Decidable (_ → _))
  | .payment _ _ _ _ _ _ => inferInstanceAs (Decidable (_ → _ → _ → _))
  | .fees _ _ _ => inferInstanceAs (Decidable (_ → _ → _))
  | .refusal => inferInstanceAs (Decidable True)

instance (s : PayState) : (call : PayCall) → Decidable (s.Proper call)
  | .buildMintReq _ _ => inferInstanceAs (Decidable True)
  | .buildPaymentReq _ _ _ => inferInstanceAs (Decidable True)
  | .addRequestFees _ _ _ _ => inferInstanceAs (Decidable (_ < _))
  | .complete i ec paymentAddresses =>
    inferInstanceAs (Decidable (∀ pending ∈ s.pending[i]?,
      s.CompletesProperly ec paymentAddresses pending))

theorem sound_of_quiet {r : Report × PayState} (h : r.2.Inv) (hcache : r.2.cache = s.cache)
    (hquiet : ∀ inputs outputs, r.1 ≠ .paid inputs outputs) : Sound s r ∧ r.2.Inv :=
  ⟨⟨h.covered, h.consistent, fun inputs outputs he => absurd he (hquiet inputs outputs),
    fun _ _ => hcache⟩, h⟩

variable {inputs : List String} {outputs : List Output} {ec : ErrorCode}

theorem fromSource_of_checkInputs {paymentAddresses : List String}
    (h : checkInputs inputs paymentAddresses) : ∀ input ∈ inputs, (fromSource input).isSome := by
  intro input hinput
  have hone := all_eq_true.mp h input hinput
  split at hone
  · rename_i hsource
    rw [hsource]
    rfl
  · cases hone

theorem addRequestFees_sound {reqJson : String} {extra : Option String} (h : s.Inv)
    (hcount : s.idsCounter < 2 ^ 32) :
    Sound s (s.addRequestFees world reqJson inputs outputs extra) ∧
      (s.addRequestFees world reqJson inputs outputs extra).2.Inv := by
  unfold addRequestFees
  split
  · exact sound_of_quiet h rfl (by simp)
  · dsimp only
    split
    · exact sound_of_quiet (h.wait rfl trivial) rfl (by simp)
    · split
      · rename_i e _
        exact e.elim
      · exact sound_of_quiet h.panicked rfl (by simp [PayState.panic])
      · split
        · split
          · exact sound_of_quiet h rfl (by simp)
          · refine sound_of_quiet (h.waitNumbered hcount rfl ?_) rfl (by simp)
            exact ⟨extra, AList.lookup_insert _⟩
        · exact sound_of_quiet (h.wait rfl trivial) rfl (by simp)

theorem completeMint_sound (extra : Option String) (h : s.Inv)
    (hproper : ec = .success → s.idsCounter < 2 ^ 32 ∧ Mintable outputs) :
    Sound s (s.completeMint outputs extra ec) ∧ (s.completeMint outputs extra ec).2.Inv := by
  unfold completeMint
  split
  · rename_i hec
    obtain ⟨hcount, hmintable⟩ := hproper hec
    have hinv := h.mint extra hcount hmintable
    refine ⟨⟨hinv.covered, hinv.consistent, ?_, ?_⟩, hinv⟩
    · intro inputs outputs he
      cases he
    · intro _ hminted
      exact absurd rfl (hminted outputs)
  · exact sound_of_quiet h rfl (by simp)

theorem completeListForPayment_sound (world : PayWorld) (inputs : List String)
    (outputs : List Output) (extra : Option String) (paymentAddresses : List String) (h : s.Inv)
    (hproper : ec = .success → s.idsCounter < 2 ^ 32) :
    Sound s (s.completeListForPayment world inputs outputs extra ec paymentAddresses) ∧
      (s.completeListForPayment world inputs outputs extra ec paymentAddresses).2.Inv := by
  unfold completeListForPayment
  split
  · exact sound_of_quiet h rfl (by simp)
  · rename_i hec
    split
    · exact sound_of_quiet h rfl (by simp)
    · rename_i hcheck
      split
      · rename_i e _
        exact e.elim
      · exact sound_of_quiet h.panicked rfl (by simp [PayState.panic])
      · refine sound_of_quiet (h.waitNumbered (hproper (not_not.mp hec)) rfl ?_) rfl (by simp)
        exact ⟨⟨extra, AList.lookup_insert _⟩, fromSource_of_checkInputs (not_not.mp hcheck)⟩

theorem Sound.of_drop {r : Report × PayState} {pending : List Pending}
    (h : Sound { s with pending := pending } r) : Sound s r :=
  ⟨h.covered, h.listed, h.consumed, h.unchanged⟩

theorem processPayment_sound {n : ℤ} {i : ℕ} {pending : Pending} {extra : Option String} (h : s.Inv)
    (hpending : s.pending[i]? = some pending) (hn : pending.seqNo = some n)
    (htxn : s.txns.lookup n = some ⟨inputs, outputs, extra⟩)
    (hread : ∀ input ∈ inputs, (fromSource input).isSome)
    (hspendable : Spendable s.cache inputs outputs) :
    Sound s ({ s with pending := s.pending.eraseIdx i }.processPayment inputs outputs n) ∧
      ({ s with pending := s.pending.eraseIdx i }.processPayment inputs outputs n).2.Inv := by
  have hwaiting : n ∈ seqNos s.pending := mem_seqNos (mem_of_getElem? hpending) hn
  obtain ⟨cache, hrun, hinv, hgone⟩ := (h.drop i).pay (h.issued n hwaiting)
    (not_mem_seqNos_eraseIdx h.distinct hpending hn)
    (fun source hmakes => h.not_makes (.inr hwaiting) hmakes) htxn hread hspendable
  rw [hrun]
  refine ⟨⟨hinv.covered, hinv.consistent, ?_, ?_⟩, hinv⟩
  · intro inputs' outputs' he
    cases he
    exact ⟨hspendable.distinct,
      fun source hsource => ⟨hspendable.present source hsource, hgone source hsource⟩, rfl,
      hinv.spentOnce⟩
  · intro hpaid _
    exact absurd rfl (hpaid inputs outputs)

theorem complete_sound {i : ℕ} {paymentAddresses : List String} {pending : Pending} (h : s.Inv)
    (hpending : s.pending[i]? = some pending)
    (hproper : s.CompletesProperly ec paymentAddresses pending) :
    Sound s
      ({ s with pending := s.pending.eraseIdx i }.complete world ec paymentAddresses pending) ∧
      ({ s with pending := s.pending.eraseIdx i }.complete world ec paymentAddresses
        pending).2.Inv := by
  have hdrop := h.drop i
  have hrecorded := h.recorded pending (mem_of_getElem? hpending)
  cases pending with
  | mint outputs extra =>
    obtain ⟨hsound, hinv⟩ := completeMint_sound extra hdrop hproper
    exact ⟨Sound.of_drop hsound, hinv⟩
  | listForPayment inputs outputs extra =>
    obtain ⟨hsound, hinv⟩ := completeListForPayment_sound world inputs outputs extra
      paymentAddresses hdrop hproper
    exact ⟨Sound.of_drop hsound, hinv⟩
  | payment inputs outputs ecExistance totalBalance totalPayments n =>
    obtain ⟨⟨extra, htxn⟩, hread⟩ := hrecorded
    simp only [complete]
    unfold completePayment
    split
    · rename_i hall
      exact processPayment_sound h hpending rfl htxn hread (hproper hall.1 hall.2.1 hall.2.2)
    · exact sound_of_quiet hdrop rfl (by simp)
  | fees inputs outputs n =>
    obtain ⟨extra, htxn⟩ := hrecorded
    simp only [complete]
    unfold completeFees
    split
    · exact sound_of_quiet hdrop rfl (by simp)
    · rename_i hec
      split
      · exact sound_of_quiet hdrop rfl (by simp)
      · rename_i hcheck
        exact processPayment_sound h hpending rfl htxn
          (fromSource_of_checkInputs (not_not.mp hcheck))
          (hproper (not_not.mp hec) (not_not.mp hcheck))
  | refusal => exact sound_of_quiet hdrop rfl (by simp [complete])

theorem step_sound (world : PayWorld) {call : PayCall} (h : s.Inv) (hproper : s.Proper call) :
    Sound s ((payMachine world).step call s) ∧ ((payMachine world).step call s).2.Inv := by
  unfold payMachine
  dsimp only
  split
  · exact sound_of_quiet h rfl (by simp)
  · cases call with
    | buildMintReq outputs extra => exact sound_of_quiet (h.wait rfl trivial) rfl (by simp)
    | buildPaymentReq inputs outputs extra =>
      exact sound_of_quiet (h.wait rfl trivial) rfl (by simp)
    | addRequestFees reqJson inputs outputs extra => exact addRequestFees_sound h hproper
    | complete i ec paymentAddresses =>
      dsimp only
      split
      · exact sound_of_quiet h rfl (by simp)
      · rename_i pending hpending
        exact complete_sound h hpending (hproper pending hpending)

/-- The state of the library before its first call, under some fees. -/
def initial (feesByCode : AssocMap String UInt64) : PayState :=
  ⟨⟨∅, ∅⟩, ∅, 0, feesByCode, [], false, 0, []⟩

theorem initial_inv (feesByCode : AssocMap String UInt64) : (initial feesByCode).Inv := by
  refine ⟨by simp [initial], ⟨by simp [initial], by simp [initial]⟩,
    by simp [initial, SourceCache.total], by simp [initial, seqNos], by simp [initial, seqNos],
    by simp [initial], by simp [initial], by simp [initial], by simp [initial]⟩

end PayState

open PayState

/-- Runs whose completions find what the checks are meant to ensure conserve the tokens. -/
theorem tokens_conserved (world : PayWorld) (feesByCode : AssocMap String UInt64)
    {calls : List PayCall} (h : (payMachine world).Along Proper (initial feesByCode) calls) :
    (payMachine world).Along (fun s call => Sound s ((payMachine world).step call s))
      (initial feesByCode) calls :=
  Machine.along_of_along (fun _ _ hinv hproper => step_sound world hinv hproper)
    (initial_inv feesByCode) h

/-- Ten tokens are minted for one address and paid to another one. -/
theorem mintAndPay_conserved :
    (payMachine ⟨fun _ => none, true⟩).Along
      (fun s call => Sound s ((payMachine ⟨fun _ => none, true⟩).step call s)) (initial ∅)
      [.buildMintReq [⟨"pay:null:a", 10⟩] none, .complete 0 .success [],
        .buildPaymentReq ["pay:null:1_a"] [⟨"pay:null:b", 10⟩] none,
        .complete 0 .success ["pay:null:a"], .complete 0 .success []] :=
  tokens_conserved ⟨fun _ => none, true⟩ ∅ (by decide +kernel)

/-- An input that is named twice pays twice its balance. -/
theorem repeatedInput_not_conserved :
    ¬ (payMachine ⟨fun _ => none, true⟩).Along
      (fun s call => Sound s ((payMachine ⟨fun _ => none, true⟩).step call s)) (initial ∅)
      [.buildMintReq [⟨"pay:null:a", 10⟩] none, .complete 0 .success [],
        .buildPaymentReq ["pay:null:1_a", "pay:null:1_a"] [⟨"pay:null:b", 20⟩] none,
        .complete 0 .success ["pay:null:a"], .complete 0 .success []] :=
  fun h => absurd h.2.2.2.2.1.covered (by decide +kernel)

end IndySdk.NullPay
