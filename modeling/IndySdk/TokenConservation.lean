import IndySdk.NullPayment
import IndySdk.Obligations

/-!
# Conservation of tokens

The balances never exceed what has been minted as long as a completion finds what the checks of its
call had found: distinct inputs that are still there, and enough in them for outputs to distinct
addresses.
-/

namespace IndySdk.NullPay

open AssocMap List

/-- The caches list the same sources, each once, by their addresses. -/
structure SourceCache.Consistent (cache : SourceCache) : Prop where
  listed : cache.sources.values.flatten.Perm cache.balances.keys
  named : ∀ paymentAddress sources, cache.sources.lookup paymentAddress = some sources →
    ∀ source ∈ sources, ∃ seqNo, toSource paymentAddress seqNo = some source

def SourceCache.total (cache : SourceCache) : ℕ := (cache.balances.values.map UInt64.toNat).sum

def balanceOf (cache : SourceCache) (source : String) : ℕ :=
  ((getBalanceOfSource cache source).map UInt64.toNat).getD 0

def totalInputs (cache : SourceCache) (inputs : List String) : ℕ :=
  (inputs.map (balanceOf cache)).sum

variable {cache : SourceCache} {paymentAddress source : String} {seqNo : ℤ} {amount : UInt64}

/-! ### One source -/

theorem flatten_perm (sources : AssocMap String (List String)) (paymentAddress : String) :
    sources.values.flatten.Perm ((sources.lookup paymentAddress).getD [] ++
      (values (sources.erase paymentAddress)).flatten) := by
  cases h : sources.lookup paymentAddress with
  | some old => exact (values_perm_erase h).flatten
  | none =>
    rw [values_erase_of_lookup h]
    rfl

theorem addSource_consistent {cache' : SourceCache} (h : cache.Consistent)
    (hadd : addSource cache paymentAddress seqNo amount = some (source, cache'))
    (hnew : source ∉ cache.balances) :
    cache'.Consistent ∧ cache'.total = cache.total + amount.toNat ∧
      cache'.balances = cache.balances.insert source amount ∧
      toSource paymentAddress seqNo = some source := by
  obtain ⟨source', hsource, he⟩ := Option.map_eq_some_iff.mp hadd
  cases he
  refine ⟨⟨?_, ?_⟩, ?_, rfl, hsource⟩
  · have hold := (flatten_perm cache.sources paymentAddress).symm.trans h.listed
    rw [values_insert, flatten_cons, AList.keys_insert,
      erase_of_not_mem (by rwa [← AList.mem_keys]), append_assoc]
    exact perm_middle.trans (hold.cons source)
  · intro address sources hsources source' hmem
    by_cases he : address = paymentAddress
    · rw [he, AList.lookup_insert, Option.some.injEq] at hsources
      rw [← hsources, mem_append, mem_singleton] at hmem
      obtain hmem | rfl := hmem
      · cases hold : cache.sources.lookup paymentAddress with
        | none =>
          rw [hold] at hmem
          cases hmem
        | some old =>
          rw [hold] at hmem
          rw [he]
          exact h.named paymentAddress old hold source' hmem
      · exact ⟨seqNo, by rw [he, hsource]⟩
    · rw [AList.lookup_insert_ne he] at hsources
      exact h.named address sources hsources source' hmem
  · rw [SourceCache.total, values_insert_of_notMem hnew, map_cons, sum_cons,
      add_comm]
    rfl

theorem removeSource_consistent {seqNo : ℤ} {amount : UInt64} (h : cache.Consistent)
    (hread : fromSource source = some (seqNo, paymentAddress))
    (hbalance : cache.balances.lookup source = some amount) :
    (removeSource cache source).Consistent ∧
      cache.total = amount.toNat + (removeSource cache source).total ∧
      (removeSource cache source).balances = cache.balances.erase source := by
  have hbalances : (removeSource cache source).balances = cache.balances.erase source := by
    rw [removeSource, hread]
  have hkey : source ∈ cache.balances.keys := by
    rw [← AList.mem_keys, ← AList.lookup_isSome, hbalance]
    rfl
  obtain ⟨sources, hsources, hmem⟩ := mem_flatten.mp (h.listed.mem_iff.mpr hkey)
  obtain ⟨address, haddress⟩ := mem_values.mp hsources
  obtain ⟨n, hn⟩ := h.named address sources haddress source hmem
  have he : paymentAddress = address := fromSource_toSource hn hread
  rw [← he] at haddress
  have hsplit := flatten_perm cache.sources paymentAddress
  rw [haddress, Option.getD_some] at hsplit
  have hnodup : (sources ++ (values (cache.sources.erase paymentAddress)).flatten).Nodup :=
    hsplit.nodup_iff.mp (h.listed.nodup_iff.mpr cache.balances.keys_nodup)
  have hleft : sources.Perm (source :: sources.filter (fun v => v ≠ source)) := by
    have herase : sources.filter (fun v => v ≠ source) = sources.erase source := by
      rw [(nodup_append.mp hnodup).1.erase_eq_filter]
      congr 1
      funext v
      by_cases hv : v = source
      · simp [hv]
      · simp [hv]
    rw [herase]
    exact perm_cons_erase hmem
  have hflatten : (removeSource cache source).sources.values.flatten =
      sources.filter (fun v => v ≠ source) ++
        (values (cache.sources.erase paymentAddress)).flatten := by
    simp only [removeSource, hread, haddress, Option.getD_some]
    split
    · rw [values_insert, flatten_cons]
    · rename_i hempty
      rw [not_not.mp hempty, nil_append]
  refine ⟨⟨?_, ?_⟩, ?_, hbalances⟩
  · rw [hflatten, hbalances, AList.keys_erase]
    have hall : (source :: (sources.filter (fun v => v ≠ source) ++
        (values (cache.sources.erase paymentAddress)).flatten)).Perm
          (source :: cache.balances.keys.erase source) :=
      ((hleft.append_right _).symm.trans (hsplit.symm.trans h.listed)).trans
        (perm_cons_erase hkey)
    exact (perm_cons source).mp hall
  · intro address' sources' hsources' source' hmem'
    have hold : ∃ old, cache.sources.lookup address' = some old ∧ source' ∈ old := by
      simp only [removeSource, hread, haddress, Option.getD_some] at hsources'
      by_cases heq : address' = paymentAddress
      · rw [heq]
        refine ⟨sources, haddress, ?_⟩
        split at hsources'
        · rw [heq, AList.lookup_insert, Option.some.injEq] at hsources'
          rw [← hsources'] at hmem'
          exact mem_of_mem_filter hmem'
        · rw [heq, AList.lookup_erase] at hsources'
          cases hsources'
      · split at hsources'
        · rw [AList.lookup_insert_ne heq] at hsources'
          exact ⟨sources', hsources', hmem'⟩
        · rw [AList.lookup_erase_ne heq] at hsources'
          exact ⟨sources', hsources', hmem'⟩
    obtain ⟨old, hold, hmemOld⟩ := hold
    exact h.named address' old hold source' hmemOld
  · rw [SourceCache.total, SourceCache.total, hbalances,
      ((values_perm_erase hbalance).map UInt64.toNat).sum_eq, map_cons, sum_cons]

/-! ### Inputs and outputs -/

theorem totalInputs_erase {cache' : SourceCache} {inputs : List String}
    (h : cache'.balances = cache.balances.erase source) (hnot : source ∉ inputs) :
    totalInputs cache' inputs = totalInputs cache inputs := by
  rw [totalInputs, totalInputs]
  congr 1
  apply map_congr_left
  intro input hinput
  have hne : input ≠ source := by
    rintro rfl
    exact hnot hinput
  rw [balanceOf, balanceOf, getBalanceOfSource, getBalanceOfSource, h, AList.lookup_erase_ne hne]

theorem processInputs_spec {inputs : List String} (h : cache.Consistent) (hnodup : inputs.Nodup)
    (hread : ∀ input ∈ inputs, (fromSource input).isSome)
    (hmem : ∀ input ∈ inputs, input ∈ cache.balances) :
    (processInputs cache inputs).Consistent ∧
      cache.total = totalInputs cache inputs + (processInputs cache inputs).total ∧
      ∀ source, source ∈ (processInputs cache inputs).balances ↔
        source ∈ cache.balances ∧ source ∉ inputs := by
  induction inputs generalizing cache with
  | nil => exact ⟨h, by simp [processInputs, totalInputs], by simp [processInputs]⟩
  | cons input inputs ih =>
    obtain ⟨hnot, hnodup⟩ := nodup_cons.mp hnodup
    obtain ⟨⟨seqNo, paymentAddress⟩, hseq⟩ :=
      Option.isSome_iff_exists.mp (hread input mem_cons_self)
    obtain ⟨amount, hamount⟩ := Option.isSome_iff_exists.mp
      (AList.lookup_isSome.mpr (hmem input mem_cons_self))
    obtain ⟨hfirst, htotal, hbalances⟩ := removeSource_consistent h hseq hamount
    have hleft : ∀ other ∈ inputs, other ∈ (removeSource cache input).balances := by
      intro other hother
      rw [hbalances, AList.mem_erase]
      refine ⟨?_, hmem other (mem_cons_of_mem _ hother)⟩
      rintro rfl
      exact hnot hother
    obtain ⟨hconsistent, hrest, hiff⟩ := ih hfirst hnodup
      (fun other hother => hread other (mem_cons_of_mem _ hother)) hleft
    refine ⟨hconsistent, ?_, ?_⟩
    · have hbalance : balanceOf cache input = amount.toNat := by
        rw [balanceOf, getBalanceOfSource, hamount]
        rfl
      rw [htotal, hrest, totalInputs_erase hbalances hnot, totalInputs, totalInputs, map_cons,
        sum_cons, hbalance, add_assoc]
      rfl
    · intro source
      refine (hiff source).trans ?_
      rw [hbalances, AList.mem_erase, mem_cons, not_or]
      constructor
      · rintro ⟨⟨hne, hin⟩, hnotin⟩
        exact ⟨hin, hne, hnotin⟩
      · rintro ⟨hin, hne, hnotin⟩
        exact ⟨⟨hne, hin⟩, hnotin⟩

/-- The sources that some outputs make under a transaction number. -/
def Makes (seqNo : ℤ) (outputs : List Output) (source : String) : Prop :=
  ∃ output ∈ outputs, toSource output.recipient seqNo = some source

variable {output : Output} {outputs : List Output}

theorem makes_cons :
    Makes seqNo (output :: outputs) source ↔
      toSource output.recipient seqNo = some source ∨ Makes seqNo outputs source := by
  simp [Makes]

theorem makes_other (hnot : output.recipient ∉ outputs.map Output.recipient)
    (hsource : toSource output.recipient seqNo = some source) : ¬ Makes seqNo outputs source := by
  rintro ⟨other, hother, hsource'⟩
  rw [(toSource_injective hsource hsource').1] at hnot
  exact hnot (mem_map_of_mem hother)

theorem getReceiptInfo_isSome {txns : AssocMap ℤ Txn} {txn : Txn}
    (hread : fromSource source = some (seqNo, output.recipient))
    (htxn : txns.lookup seqNo = some txn) (hmem : output ∈ txn.outputs) :
    ∃ info, getReceiptInfo txns source = some info := by
  have hfind : (txn.outputs.find? (fun out => out.recipient = output.recipient)).isSome :=
    find?_isSome.mpr ⟨output, hmem, by simp⟩
  obtain ⟨out, hout⟩ := Option.isSome_iff_exists.mp hfind
  refine ⟨⟨source, output.recipient, out.amount, txn.extra⟩, ?_⟩
  simp [getReceiptInfo, hread, htxn, hout]

theorem processOutputs_spec {txns : AssocMap ℤ Txn} {txn : Txn} (h : cache.Consistent)
    (hpayable : ∀ output ∈ outputs, Payable output.recipient)
    (hnodup : (outputs.map Output.recipient).Nodup) (hlow : -2 ^ 31 ≤ seqNo)
    (hhigh : seqNo < 2 ^ 31) (htxn : txns.lookup seqNo = some txn)
    (hmem : ∀ output ∈ outputs, output ∈ txn.outputs)
    (hfresh : ∀ source, Makes seqNo outputs source → source ∉ cache.balances) :
    ∃ cache' infos, processOutputs txns seqNo cache outputs = (cache', some infos) ∧
      cache'.Consistent ∧ cache'.total = cache.total + totalAmount outputs ∧
      ∀ source, source ∈ cache'.balances ↔
        source ∈ cache.balances ∨ Makes seqNo outputs source := by
  induction outputs generalizing cache with
  | nil => exact ⟨cache, [], rfl, h, by simp [totalAmount], by simp [Makes]⟩
  | cons output outputs ih =>
    rw [map_cons, nodup_cons] at hnodup
    obtain ⟨source, hsource⟩ := (hpayable output mem_cons_self).exists_source seqNo
    have hread := (hpayable output mem_cons_self).fromSource hlow hhigh hsource
    obtain ⟨info, hinfo⟩ := getReceiptInfo_isSome hread htxn (hmem output mem_cons_self)
    obtain ⟨next, hadd⟩ : ∃ next,
        addSource cache output.recipient seqNo output.amount = some (source, next) := by
      rw [addSource, hsource]
      exact ⟨_, rfl⟩
    obtain ⟨hnext, htotal, hbalances, _⟩ := addSource_consistent h hadd
      (hfresh source (makes_cons.mpr (.inl hsource)))
    have hleft : ∀ other, Makes seqNo outputs other → other ∉ next.balances := by
      intro other hother
      rw [hbalances, AList.mem_insert, not_or]
      refine ⟨?_, hfresh other (makes_cons.mpr (.inr hother))⟩
      rintro rfl
      exact makes_other hnodup.1 hsource hother
    obtain ⟨cache', infos, hrun, hconsistent, hrest, hiff⟩ := ih hnext
      (fun other hother => hpayable other (mem_cons_of_mem _ hother)) hnodup.2
      (fun other hother => hmem other (mem_cons_of_mem _ hother)) hleft
    refine ⟨cache', info :: infos, ?_, hconsistent, ?_, ?_⟩
    · rw [processOutputs, hadd]
      dsimp only
      rw [hinfo]
      dsimp only
      rw [hrun]
      rfl
    · rw [hrest, htotal, totalAmount, totalAmount, map_cons, sum_cons, add_assoc]
    · intro other
      refine (hiff other).trans ?_
      rw [hbalances, AList.mem_insert, makes_cons, hsource, Option.some.injEq, eq_comm,
        or_comm (a := source = other), or_assoc]

theorem mintOutputs_spec {outputs : List Output} (h : cache.Consistent)
    (hnodup : ((outputs.filter (fun output => (toSource output.recipient seqNo).isSome)).map
      Output.recipient).Nodup)
    (hfresh : ∀ source, Makes seqNo outputs source → source ∉ cache.balances) :
    (mintOutputs seqNo cache outputs).Consistent ∧
      (mintOutputs seqNo cache outputs).total ≤ cache.total + totalAmount outputs ∧
      ∀ source, source ∈ (mintOutputs seqNo cache outputs).balances ↔
        source ∈ cache.balances ∨ Makes seqNo outputs source := by
  induction outputs generalizing cache with
  | nil => exact ⟨h, by simp [mintOutputs, totalAmount], by simp [mintOutputs, Makes]⟩
  | cons output outputs ih =>
    have hsum : totalAmount (output :: outputs) = output.amount.toNat + totalAmount outputs := by
      rw [totalAmount, map_cons, sum_cons]
      rfl
    cases hsource : toSource output.recipient seqNo with
    | none =>
      have hstep : mintOutputs seqNo cache (output :: outputs) =
          mintOutputs seqNo cache outputs := by
        rw [mintOutputs, foldl_cons, addSource, hsource]
        rfl
      rw [filter_cons_of_neg (by simp [hsource])] at hnodup
      obtain ⟨hconsistent, htotal, hiff⟩ := ih h hnodup
        (fun other hother => hfresh other (makes_cons.mpr (.inr hother)))
      rw [hstep]
      refine ⟨hconsistent, by omega, ?_⟩
      intro other
      refine (hiff other).trans ?_
      rw [makes_cons, hsource]
      simp
    | some source =>
      obtain ⟨next, hadd⟩ : ∃ next,
          addSource cache output.recipient seqNo output.amount = some (source, next) := by
        rw [addSource, hsource]
        exact ⟨_, rfl⟩
      have hstep : mintOutputs seqNo cache (output :: outputs) =
          mintOutputs seqNo next outputs := by
        rw [mintOutputs, foldl_cons, hadd]
        rfl
      rw [filter_cons_of_pos (by simp [hsource]), map_cons, nodup_cons] at hnodup
      obtain ⟨hnext, hamount, hbalances, _⟩ := addSource_consistent h hadd
        (hfresh source (makes_cons.mpr (.inl hsource)))
      have hleft : ∀ other, Makes seqNo outputs other → other ∉ next.balances := by
        intro other hother
        rw [hbalances, AList.mem_insert, not_or]
        refine ⟨?_, hfresh other (makes_cons.mpr (.inr hother))⟩
        rintro rfl
        obtain ⟨out, hout, hname⟩ := hother
        refine hnodup.1 (mem_map.mpr ⟨out, mem_filter.mpr ⟨hout, ?_⟩, ?_⟩)
        · rw [hname]
          rfl
        · exact (toSource_injective hname hsource).1
      obtain ⟨hconsistent, htotal, hiff⟩ := ih hnext hnodup.2 hleft
      rw [hstep]
      refine ⟨hconsistent, by omega, ?_⟩
      intro other
      refine (hiff other).trans ?_
      rw [hbalances, AList.mem_insert, makes_cons, hsource, Option.some.injEq, eq_comm,
        or_comm (a := source = other), or_assoc]

end IndySdk.NullPay
