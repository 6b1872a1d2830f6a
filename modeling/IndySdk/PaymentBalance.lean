import Mathlib.Algebra.GroupWithZero.Nat
import IndySdk.CoinSelection

/-!
# The coins of a payment balance

A payment takes the shortest run of coins, in the order of the wallet, that covers its cost. It
balances as long as no sum leaves the machine words, every coin that is needed names its source,
and there is an address to give the rest back to.
-/

namespace IndySdk.Vcx

open Outcome List

def total (utxos : List Utxo) : ℕ := (utxos.map (fun utxo => utxo.amount.toNat)).sum

@[simp] theorem total_nil : total [] = 0 := rfl

@[simp] theorem total_cons (utxo : Utxo) (rest : List Utxo) :
    total (utxo :: rest) = utxo.amount.toNat + total rest := rfl

@[simp] theorem total_append (xs ys : List Utxo) : total (xs ++ ys) = total xs + total ys := by
  simp [total]

/-- The addresses that answer before the first one that fails, and that failure. -/
def answeredAddresses (method : String) : List (String × Except VcxError (List Utxo)) →
    List (String × List Utxo) × Option VcxError
  | [] => ([], none)
  | (address, sources) :: rest =>
    if isValidAddress address method then
      match sources with
      | .ok utxos =>
        ((address, utxos) :: (answeredAddresses method rest).1, (answeredAddresses method rest).2)
      | .error e => ([], some e)
    else answeredAddresses method rest

def PaymentWorld.listed (world : PaymentWorld) : List (String × List Utxo) × Option VcxError :=
  match world.addresses, world.paymentMethod with
  | .ok addresses, .ok method => answeredAddresses method addresses
  | .ok _, .error e => ([], some e)
  | .error e, _ => ([], some e)

def PaymentWorld.walletAddresses (world : PaymentWorld) : List String := world.listed.1.map (·.1)

def PaymentWorld.utxos (world : PaymentWorld) : List Utxo := world.listed.1.flatMap (·.2)

/-! ### The balance of the wallet -/

variable {overflowChecks : Bool} {balance : ℕ} {utxos : List Utxo}

theorem addAmounts_of_fits (h : balance + total utxos < 2 ^ 64) :
    addAmounts overflowChecks balance utxos = .ok (balance + total utxos) := by
  induction utxos generalizing balance with
  | nil => rfl
  | cons utxo rest ih =>
    rw [total_cons] at h ⊢
    rw [addAmounts, wordAdd, if_pos (by omega), ok_bind, ih (by omega), add_assoc]

theorem fits_of_addAmounts {balance : ℕ} {utxos : List Utxo} (hb : balance < 2 ^ 64)
    (h : addAmounts true balance utxos ≠ .panic) : balance + total utxos < 2 ^ 64 := by
  induction utxos generalizing balance with
  | nil => exact hb
  | cons utxo rest ih =>
    by_cases hadd : balance + utxo.amount.toNat < 2 ^ 64
    · rw [addAmounts, wordAdd, if_pos hadd, ok_bind] at h
      have hrest := ih hadd h
      rw [total_cons]
      omega
    · rw [addAmounts, wordAdd, if_neg hadd, if_pos rfl] at h
      exact absurd rfl h

def addressInfoOf (p : String × List Utxo) : AddressInfo := ⟨p.1, total p.2, p.2⟩

def walletOf (balance : ℕ) (listed : List (String × List Utxo) × Option VcxError) :
    VcxResult WalletInfo :=
  match listed.2 with
  | none => .ok ⟨balance + total (listed.1.flatMap (·.2)), listed.1.map addressInfoOf⟩
  | some e => .err e

theorem getAddressInfos_of_fits {method : String}
    {addresses : List (String × Except VcxError (List Utxo))}
    (h : balance + total ((answeredAddresses method addresses).1.flatMap (·.2)) < 2 ^ 64) :
    getAddressInfos overflowChecks method balance addresses =
      walletOf balance (answeredAddresses method addresses) := by
  induction addresses generalizing balance with
  | nil => rfl
  | cons p rest ih =>
    obtain ⟨address, sources⟩ := p
    by_cases hvalid : isValidAddress address method = true
    · cases sources with
      | error e => simp [getAddressInfos, answeredAddresses, hvalid, walletOf, getAddressInfo]
      | ok utxos =>
        simp only [answeredAddresses, hvalid, if_true, flatMap_cons, total_append] at h ⊢
        have hbalance : addressBalance overflowChecks utxos = .ok (total utxos) := by
          rw [addressBalance, addAmounts_of_fits (by omega), Nat.zero_add]
        have hsum : addAmounts overflowChecks balance utxos = .ok (balance + total utxos) :=
          addAmounts_of_fits (by omega)
        have hrest := @ih (balance + total utxos) (by omega)
        simp only [getAddressInfos, hvalid, if_true, getAddressInfo, answered_ok, ok_bind,
          hbalance, pure_eq_ok, hsum, hrest]
        cases hfail : (answeredAddresses method rest).2 with
        | none => simp [walletOf, hfail, addressInfoOf, add_assoc]
        | some e => simp [walletOf, hfail]
    · simp only [answeredAddresses, hvalid] at h ⊢
      simp only [getAddressInfos, hvalid]
      exact ih h

theorem fits_of_getAddressInfos {method : String} (hb : balance < 2 ^ 64)
    {addresses : List (String × Except VcxError (List Utxo))}
    (h : getAddressInfos true method balance addresses ≠ .panic) :
    balance + total ((answeredAddresses method addresses).1.flatMap (·.2)) < 2 ^ 64 := by
  induction addresses generalizing balance with
  | nil => exact hb
  | cons p rest ih =>
    obtain ⟨address, sources⟩ := p
    by_cases hvalid : isValidAddress address method = true
    · cases sources with
      | error e => simpa [answeredAddresses, hvalid] using hb
      | ok utxos =>
        simp only [getAddressInfos, hvalid, if_true, getAddressInfo, answered_ok,
          ok_bind] at h
        simp only [answeredAddresses, hvalid, if_true, flatMap_cons, total_append]
        have hone : total utxos < 2 ^ 64 := by
          have := @fits_of_addAmounts 0 utxos (by omega) (fun hp => h (by
            rw [addressBalance, hp]
            rfl))
          omega
        have hinfo : addressBalance true utxos = .ok (total utxos) := by
          rw [addressBalance, addAmounts_of_fits (by omega), Nat.zero_add]
        rw [hinfo, ok_bind, pure_eq_ok, ok_bind] at h
        have hsum := @fits_of_addAmounts _ utxos hb (fun hp => h (by rw [hp]; rfl))
        rw [addAmounts_of_fits hsum, ok_bind] at h
        have hrest := ih hsum (fun hp => h (by rw [hp]; rfl))
        omega
    · simp only [getAddressInfos, hvalid] at h
      simp only [answeredAddresses, hvalid]
      exact ih hb h

variable {world : PaymentWorld}

theorem getWalletTokenInfo_of_fits (h : total world.utxos < 2 ^ 64) :
    getWalletTokenInfo overflowChecks world = walletOf 0 world.listed := by
  rw [PaymentWorld.utxos] at h
  cases ha : world.addresses with
  | error e => simp [getWalletTokenInfo, PaymentWorld.listed, ha, walletOf]
  | ok addresses =>
    cases hm : world.paymentMethod with
    | error e => simp [getWalletTokenInfo, PaymentWorld.listed, ha, hm, walletOf]
    | ok method =>
      simp only [PaymentWorld.listed, ha, hm] at h ⊢
      simp only [getWalletTokenInfo, ha, hm, answered_ok, ok_bind]
      exact getAddressInfos_of_fits (by omega)

theorem fits_of_getWalletTokenInfo (h : getWalletTokenInfo true world ≠ .panic) :
    total world.utxos < 2 ^ 64 := by
  rw [PaymentWorld.utxos]
  cases ha : world.addresses with
  | error e => simp [PaymentWorld.listed, ha]
  | ok addresses =>
    cases hm : world.paymentMethod with
    | error e => simp [PaymentWorld.listed, ha, hm]
    | ok method =>
      simp only [getWalletTokenInfo, ha, hm, answered_ok, ok_bind] at h
      have hfits := fits_of_getAddressInfos (by omega) h
      simpa only [PaymentWorld.listed, ha, hm, Nat.zero_add] using hfits

/-! ### The coins that are needed -/

/-- The shortest run of coins that brings the balance to the cost. -/
def needed (cost : ℕ) : ℕ → List Utxo → List Utxo
  | _, [] => []
  | balance, utxo :: rest =>
    if balance < cost then utxo :: needed cost (balance + utxo.amount.toNat) rest else []

theorem needed_of_le {cost : ℕ} (h : cost ≤ balance) (utxos : List Utxo) :
    needed cost balance utxos = [] := by
  cases utxos with
  | nil => rfl
  | cons utxo rest => rw [needed, if_neg (by omega)]

theorem needed_isPrefix (cost balance : ℕ) (utxos : List Utxo) :
    needed cost balance utxos <+: utxos := by
  induction utxos generalizing balance with
  | nil => exact prefix_rfl
  | cons utxo rest ih =>
    rw [needed]
    split
    · exact prefix_cons_inj utxo |>.mpr (ih _)
    · exact nil_prefix

theorem needed_append (cost balance : ℕ) (xs ys : List Utxo) :
    needed cost balance (xs ++ ys) =
      needed cost balance xs ++ needed cost (balance + total xs) ys := by
  induction xs generalizing balance with
  | nil => rfl
  | cons utxo rest ih =>
    by_cases h : balance < cost
    · rw [cons_append, needed, needed, if_pos h, if_pos h, ih, total_cons, add_assoc,
        cons_append]
    · rw [needed_of_le (by omega), needed_of_le (by omega), needed_of_le (by omega),
        append_nil]

theorem cost_le_needed {cost balance : ℕ} {utxos : List Utxo} (h : cost ≤ balance + total utxos) :
    cost ≤ balance + total (needed cost balance utxos) := by
  induction utxos generalizing balance with
  | nil => exact h
  | cons utxo rest ih =>
    rw [total_cons, ← add_assoc] at h
    have hrest := ih h
    rw [needed]
    split
    · rw [total_cons]
      omega
    · rw [total_nil]
      omega

theorem mem_needed {cost : ℕ} {utxo : Utxo} :
    utxo ∈ needed cost balance utxos ↔
      ∃ before after, utxos = before ++ utxo :: after ∧ balance + total before < cost := by
  induction utxos generalizing balance with
  | nil => simp [needed]
  | cons first rest ih =>
    constructor
    · intro h
      rw [needed] at h
      split at h
      · rename_i hlt
        rcases mem_cons.mp h with rfl | h
        · exact ⟨[], rest, rfl, hlt⟩
        · obtain ⟨before, after, rfl, hcost⟩ := ih.mp h
          exact ⟨first :: before, after, rfl, by rw [total_cons]; omega⟩
      · exact absurd h not_mem_nil
    · rintro ⟨before, after, heq, hcost⟩
      rw [needed, if_pos (by omega), mem_cons]
      cases before with
      | nil =>
        cases heq
        exact .inl rfl
      | cons second before =>
        cases heq
        rw [total_cons, ← add_assoc] at hcost
        exact .inr (ih.mpr ⟨before, after, rfl, hcost⟩)

/-! ### The two loops -/

def sourceOf (utxo : Utxo) : VcxResult String :=
  ofOption ⟨.insufficientTokenAmount, "", []⟩ utxo.source

theorem chooseUtxos_eq {overflowChecks : Bool} {cost balance : ℕ} (chosen : List String)
    {utxos : List Utxo} (h : balance + total utxos < 2 ^ 64) :
    ∃ stop, chooseUtxos overflowChecks cost ⟨chosen, balance⟩ utxos =
        (fun sources =>
            (⟨chosen ++ sources, balance + total (needed cost balance utxos)⟩, stop)) <$>
          (needed cost balance utxos).mapM sourceOf ∧
      (stop = true → cost ≤ balance + total utxos) ∧
      (stop = false → needed cost balance utxos = utxos) := by
  induction utxos generalizing balance chosen with
  | nil => exact ⟨false, by simp [chooseUtxos, needed], nofun, fun _ => rfl⟩
  | cons utxo rest ih =>
    rw [total_cons, ← add_assoc] at h ⊢
    by_cases hcost : balance < cost
    · have hadd : (wordAdd 64 overflowChecks balance utxo.amount.toNat : VcxResult ℕ) =
          .ok (balance + utxo.amount.toNat) := by
        rw [wordAdd, if_pos (by omega)]
      cases hsource : utxo.source with
      | none =>
        obtain ⟨stop, -, hstop, hgo⟩ := ih [] h
        refine ⟨stop, ?_, hstop, fun hf => by rw [needed, if_pos hcost, hgo hf]⟩
        rw [chooseUtxos, if_pos hcost, needed, if_pos hcost, mapM_cons, sourceOf, hsource]
        rfl
      | some source =>
        obtain ⟨stop, heq, hstop, hgo⟩ := ih (chosen ++ [source]) h
        refine ⟨stop, ?_, hstop, fun hf => by rw [needed, if_pos hcost, hgo hf]⟩
        rw [chooseUtxos, if_pos hcost, needed, if_pos hcost, mapM_cons, sourceOf, hsource,
          ofOption_some, ok_bind, hadd, ok_bind, heq, ok_bind,
          total_cons]
        simp [map_eq_pure_bind, add_assoc]
    · refine ⟨true, ?_, fun _ => by omega, nofun⟩
      rw [chooseUtxos, if_neg hcost, needed_of_le (by omega)]
      simp

theorem chooseAddresses_eq {overflowChecks : Bool} {cost balance : ℕ} (chosen : List String)
    (refund : String) {infos : List AddressInfo}
    (h : balance + total (infos.flatMap (·.utxo)) < 2 ^ 64) :
    ∃ address, chooseAddresses overflowChecks cost ⟨chosen, balance⟩ refund infos =
        (fun sources => (⟨chosen ++ sources,
            balance + total (needed cost balance (infos.flatMap (·.utxo)))⟩, address)) <$>
          (needed cost balance (infos.flatMap (·.utxo))).mapM sourceOf ∧
      (infos = [] ∧ address = refund ∨ address ∈ infos.map (·.address)) := by
  induction infos generalizing balance chosen refund with
  | nil => exact ⟨refund, by simp [chooseAddresses, needed], .inl ⟨rfl, rfl⟩⟩
  | cons info rest ih =>
    rw [flatMap_cons, total_append, ← add_assoc] at h
    obtain ⟨stop, hinner, hstop, hgo⟩ :=
      @chooseUtxos_eq overflowChecks cost _ chosen _ (by omega :
        balance + total info.utxo < 2 ^ 64)
    rw [flatMap_cons, needed_append]
    cases stop with
    | true =>
      refine ⟨info.address, ?_, .inr mem_cons_self⟩
      rw [chooseAddresses, hinner, needed_of_le (hstop rfl), append_nil]
      simp [map_eq_pure_bind]
    | false =>
      have hall := hgo rfl
      rw [chooseAddresses, hinner, mapM_append]
      cases hsources : (needed cost balance info.utxo).mapM sourceOf with
      | ok sources =>
        obtain ⟨address, houter, haddress⟩ := ih (chosen ++ sources) info.address h
        refine ⟨address, ?_, .inr ?_⟩
        · rw [map_ok, ok_bind, hall]
          simp [houter, map_eq_pure_bind, add_assoc]
        · rcases haddress with ⟨-, rfl⟩ | hmem
          · exact mem_cons_self
          · exact mem_cons_of_mem _ hmem
      | err e => exact ⟨info.address, rfl, .inr mem_cons_self⟩
      | panic => exact ⟨info.address, rfl, .inr mem_cons_self⟩

/-! ### A payment whose sums fit -/

/-- What a payment costs, as a number without a bound. -/
def exactCost (payee : Option (String × UInt64)) (fee : UInt64) : ℕ :=
  (payee.elim 0 (·.2.toNat)) + fee.toNat

theorem inputs_of_fits {overflowChecks : Bool} {world : PaymentWorld} {cost : ℕ}
    (h : total world.utxos < 2 ^ 64) (hread : world.listed.2 = none)
    (hcost : cost ≤ total world.utxos) :
    ∃ address, (world.walletAddresses = [] ∨ address ∈ world.walletAddresses) ∧
      inputs overflowChecks world cost =
        (fun sources => (total (needed cost 0 world.utxos) - cost, sources, address)) <$>
          (needed cost 0 world.utxos).mapM sourceOf := by
  have hflat : (world.listed.1.map addressInfoOf).flatMap (·.utxo) = world.utxos := by
    rw [flatMap_map]
    rfl
  obtain ⟨address, heq, haddress⟩ := @chooseAddresses_eq overflowChecks cost 0 [] ""
    (world.listed.1.map addressInfoOf) (by rw [hflat]; omega)
  refine ⟨address, ?_, ?_⟩
  · rcases haddress with ⟨hnil, -⟩ | hmem
    · exact .inl (by rw [PaymentWorld.walletAddresses, map_eq_nil_iff.mp hnil]; rfl)
    · rw [map_map] at hmem
      exact .inr hmem
  · have hneeded : cost ≤ total (needed cost 0 world.utxos) := by
      have := @cost_le_needed cost 0 world.utxos (by omega)
      omega
    rw [inputs, getWalletTokenInfo_of_fits h, walletOf, hread, ok_bind]
    rw [if_neg (by rw [Nat.zero_add]; exact Nat.not_lt.mpr hcost), heq, hflat]
    simp [map_eq_pure_bind, wordSub_of_le hneeded]

theorem inputs_of_short {overflowChecks : Bool} {world : PaymentWorld} {cost : ℕ}
    (h : total world.utxos < 2 ^ 64) (hshort : world.listed.2 ≠ none ∨ total world.utxos < cost) :
    ∃ e, inputs overflowChecks world cost = .err e := by
  rw [inputs, getWalletTokenInfo_of_fits h, walletOf]
  cases hfail : world.listed.2 with
  | some e => exact ⟨e, rfl⟩
  | none =>
    have hlt : total world.utxos < cost := hshort.resolve_left (not_not.mpr hfail)
    rw [ok_bind, if_pos (by rw [Nat.zero_add]; exact hlt)]
    exact ⟨_, rfl⟩

theorem coins_eq {overflowChecks : Bool} {world : PaymentWorld} {payee : Option (String × UInt64)}
    {fee : UInt64} (h : exactCost payee fee < 2 ^ 64) :
    coins overflowChecks world payee fee =
      (fun r => ⟨r.2.1, r.2.2, outputs r.1 r.2.2 (payee.map (·.1)) (payee.map (·.2.toNat))⟩) <$>
        inputs overflowChecks world (exactCost payee fee) := by
  cases payee with
  | none =>
    have hfee : exactCost none fee = fee.toNat := Nat.zero_add _
    rw [coins, hfee]
    simp [map_eq_pure_bind]
  | some p =>
    have hcost : (wordAdd 64 overflowChecks p.2.toNat fee.toNat : VcxResult ℕ) =
        .ok (exactCost (some p) fee) := if_pos h
    simp only [coins, hcost, ok_bind, map_eq_pure_bind]

theorem sum_outputs (remainder : ℕ) (refundAddress : String) (payee : Option (String × UInt64)) :
    ((outputs remainder refundAddress (payee.map (·.1)) (payee.map (·.2.toNat))).map
      (·.amount)).sum = remainder + payee.elim 0 (·.2.toNat) := by
  cases payee <;> by_cases h : 0 < remainder <;> simp [outputs, h] <;> omega

theorem mapM_sourceOf {sources : List String} :
    utxos.mapM sourceOf = .ok sources ↔ utxos.map (·.source) = sources.map some := by
  rw [mapM_eq_ok_iff]
  induction utxos generalizing sources with
  | nil => cases sources <;> simp
  | cons utxo rest ih =>
    cases sources with
    | nil => simp
    | cons source sources => simp [ih, sourceOf]

theorem exists_mapM_sourceOf (h : ∀ utxo ∈ utxos, utxo.source.isSome) :
    ∃ sources, utxos.mapM sourceOf = .ok sources := by
  obtain ⟨g, hg, -⟩ := Outcome.exists_mapM_eq (f := sourceOf) (P := fun _ _ => True)
    (fun utxo hutxo => by
      obtain ⟨source, hsource⟩ := Option.isSome_iff_exists.mp (h utxo hutxo)
      exact ⟨source, by rw [sourceOf, hsource]; rfl, trivial⟩)
  exact ⟨_, hg⟩

/-! ### Balance -/

/-- The coins that are spent are worth the outputs and the fee. -/
def Coins.Balanced (c : Coins) (world : PaymentWorld) (fee : UInt64) : Prop :=
  ∃ chosen, chosen <+: world.utxos ∧ chosen.map (·.source) = c.inputs.map some ∧
    total chosen = (c.outputs.map (·.amount)).sum + fee.toNat

/-- What a payment promises, with and without overflow checks. -/
structure CoinsBalance (world : PaymentWorld) (payee : Option (String × UInt64)) (fee : UInt64) :
    Prop where
  in_range : coins true world payee fee ≠ .panic
  pays_iff : ∀ overflowChecks, (∃ c, coins overflowChecks world payee fee = .ok c) ↔
    world.listed.2 = none ∧ exactCost payee fee ≤ total world.utxos
  balanced : ∀ overflowChecks c, coins overflowChecks world payee fee = .ok c →
    c.Balanced world fee
  once : ∀ overflowChecks c, coins overflowChecks world payee fee = .ok c →
    (world.utxos.filterMap (·.source)).Nodup → c.inputs.Nodup
  refunded : ∀ overflowChecks c, coins overflowChecks world payee fee = .ok c →
    c.refundAddress ∈ world.walletAddresses

/-- The sums fit a machine word, and a payment that the wallet can afford finds a source in each
coin that the coins before it do not make unnecessary, and an address for the rest. -/
structure CoinsUsable (world : PaymentWorld) (payee : Option (String × UInt64)) (fee : UInt64) :
    Prop where
  cost_lt : exactCost payee fee < 2 ^ 64
  total_lt : total world.utxos < 2 ^ 64
  has_source : world.listed.2 = none → exactCost payee fee ≤ total world.utxos →
    ∀ before utxo after, world.utxos = before ++ utxo :: after →
      total before < exactCost payee fee → utxo.source.isSome
  has_address : world.listed.2 = none → exactCost payee fee ≤ total world.utxos →
    world.walletAddresses ≠ []

theorem exactCost_lt_of_coins {payee : Option (String × UInt64)} {fee : UInt64}
    (h : coins true world payee fee ≠ .panic) : exactCost payee fee < 2 ^ 64 := by
  cases payee with
  | none =>
    have := fee.toNat_lt
    simpa [exactCost] using this
  | some p =>
    by_contra hover
    have hcost : (wordAdd 64 true p.2.toNat fee.toNat : VcxResult ℕ) = .panic := by
      rw [wordAdd, if_pos rfl]
      exact if_neg hover
    simp only [coins, hcost] at h
    exact absurd rfl h

theorem total_lt_of_coins {payee : Option (String × UInt64)} {fee : UInt64}
    (h : coins true world payee fee ≠ .panic) : total world.utxos < 2 ^ 64 := by
  rw [coins_eq (exactCost_lt_of_coins h), Ne, map_eq_panic_iff, inputs] at h
  exact fits_of_getWalletTokenInfo (fun hp => h (by rw [hp]; rfl))

section Fits

variable {world : PaymentWorld} {payee : Option (String × UInt64)} {fee : UInt64}

theorem coins_needed {overflowChecks : Bool} {c : Coins} (hcost : exactCost payee fee < 2 ^ 64)
    (htotal : total world.utxos < 2 ^ 64) (hc : coins overflowChecks world payee fee = .ok c) :
    (world.listed.2 = none ∧ exactCost payee fee ≤ total world.utxos) ∧
      (needed (exactCost payee fee) 0 world.utxos).map (·.source) = c.inputs.map some ∧
      total (needed (exactCost payee fee) 0 world.utxos) =
        (c.outputs.map (·.amount)).sum + fee.toNat ∧
      (world.walletAddresses = [] ∨ c.refundAddress ∈ world.walletAddresses) := by
  rw [coins_eq hcost, map_eq_ok_iff] at hc
  obtain ⟨r, hr, rfl⟩ := hc
  have hcan : world.listed.2 = none ∧ exactCost payee fee ≤ total world.utxos := by
    by_contra hnot
    rw [not_and_or, Nat.not_le] at hnot
    obtain ⟨e, he⟩ := @inputs_of_short overflowChecks _ _ htotal hnot
    rw [he] at hr
    cases hr
  obtain ⟨address, haddress, heq⟩ :=
    @inputs_of_fits overflowChecks _ _ htotal hcan.1 hcan.2
  rw [heq, map_eq_ok_iff] at hr
  obtain ⟨sources, hsources, rfl⟩ := hr
  refine ⟨hcan, mapM_sourceOf.mp hsources, ?_, haddress⟩
  have hneeded := @cost_le_needed (exactCost payee fee) 0 world.utxos (by omega)
  rw [sum_outputs]
  rw [exactCost] at hneeded ⊢
  omega

theorem coins_usable (h : CoinsBalance world payee fee) : CoinsUsable world payee fee := by
  have hcost := exactCost_lt_of_coins h.in_range
  have htotal := total_lt_of_coins h.in_range
  refine ⟨hcost, htotal, ?_, ?_⟩
  · intro hread hcan before utxo after hsplit hbefore
    obtain ⟨c, hc⟩ := (h.pays_iff true).mpr ⟨hread, hcan⟩
    obtain ⟨-, hsources, -⟩ := coins_needed hcost htotal hc
    have hmem : utxo ∈ needed (exactCost payee fee) 0 world.utxos :=
      mem_needed.mpr ⟨before, after, hsplit, by omega⟩
    have hsource := mem_map_of_mem (f := (·.source)) hmem
    rw [hsources] at hsource
    obtain ⟨source, -, hsome⟩ := mem_map.mp hsource
    exact Option.isSome_iff_exists.mpr ⟨source, hsome.symm⟩
  · intro hread hcan hnil
    obtain ⟨c, hc⟩ := (h.pays_iff true).mpr ⟨hread, hcan⟩
    have hrefund := h.refunded true c hc
    rw [hnil] at hrefund
    exact absurd hrefund not_mem_nil

theorem needed_sources (h : CoinsUsable world payee fee)
    (hcan : world.listed.2 = none ∧ exactCost payee fee ≤ total world.utxos) :
    ∃ sources, (needed (exactCost payee fee) 0 world.utxos).mapM sourceOf = .ok sources := by
  apply exists_mapM_sourceOf
  intro utxo hmem
  obtain ⟨before, after, hsplit, hbefore⟩ := mem_needed.mp hmem
  exact h.has_source hcan.1 hcan.2 before utxo after hsplit (by omega)

theorem coins_of_usable (overflowChecks : Bool) (h : CoinsUsable world payee fee)
    (hcan : world.listed.2 = none ∧ exactCost payee fee ≤ total world.utxos) :
    ∃ c, coins overflowChecks world payee fee = .ok c := by
  obtain ⟨address, -, heq⟩ :=
    @inputs_of_fits overflowChecks _ _ h.total_lt hcan.1 hcan.2
  obtain ⟨sources, hsources⟩ := needed_sources h hcan
  rw [coins_eq h.cost_lt, heq, hsources]
  exact ⟨_, rfl⟩

theorem coins_of_short (overflowChecks : Bool) (h : CoinsUsable world payee fee)
    (hcan : ¬(world.listed.2 = none ∧ exactCost payee fee ≤ total world.utxos)) :
    ∃ e, coins overflowChecks world payee fee = .err e := by
  rw [not_and_or, Nat.not_le] at hcan
  obtain ⟨e, he⟩ := @inputs_of_short overflowChecks _ _ h.total_lt hcan
  rw [coins_eq h.cost_lt, he]
  exact ⟨e, rfl⟩

theorem coins_balance (h : CoinsUsable world payee fee) : CoinsBalance world payee fee := by
  have hgo := fun overflowChecks c =>
    @coins_needed _ _ _ overflowChecks c h.cost_lt h.total_lt
  refine ⟨?_, ?_, ?_, ?_, ?_⟩
  · by_cases hcan : world.listed.2 = none ∧ exactCost payee fee ≤ total world.utxos
    · obtain ⟨c, hc⟩ := coins_of_usable true h hcan
      rw [hc]
      exact ok_ne_panic c
    · obtain ⟨e, he⟩ := coins_of_short true h hcan
      rw [he]
      exact err_ne_panic e
  · intro overflowChecks
    constructor
    · rintro ⟨c, hc⟩
      exact (hgo _ _ hc).1
    · exact coins_of_usable overflowChecks h
  · intro overflowChecks c hc
    obtain ⟨-, hsources, hsum, -⟩ := hgo _ _ hc
    exact ⟨_, needed_isPrefix _ _ _, hsources, hsum⟩
  · intro overflowChecks c hc hnodup
    obtain ⟨-, hsources, -, -⟩ := hgo _ _ hc
    have hinputs : (needed (exactCost payee fee) 0 world.utxos).filterMap (·.source) =
        c.inputs := by
      have hsome : (c.inputs.map some).filterMap id = c.inputs := by
        rw [filterMap_map]
        exact filterMap_some
      rw [← hsources, filterMap_map] at hsome
      exact hsome
    rw [← hinputs]
    exact hnodup.sublist ((needed_isPrefix _ _ _).sublist.filterMap _)
  · intro overflowChecks c hc
    obtain ⟨⟨hread, hcan⟩, -, -, hrefund⟩ := hgo _ _ hc
    exact hrefund.resolve_left (h.has_address hread hcan)

end Fits

/-- A payment keeps its promises exactly when its sums fit a machine word and the coins that it
needs, and the address that it refunds, are there. -/
theorem coinsBalance_iff (world : PaymentWorld) (payee : Option (String × UInt64)) (fee : UInt64) :
    CoinsBalance world payee fee ↔ CoinsUsable world payee fee :=
  ⟨coins_usable, coins_balance⟩

def smallWallet : PaymentWorld where
  addresses := .ok [("pay:null:a", .ok [⟨some "coin", "pay:null:a", 5, none⟩])]
  paymentMethod := .ok "null"
  fees := .ok (AList.insert "10001" 2 ∅)
  institutionDid := .ok "did"
  signAndSubmitRequest _ _ := .ok "response"
  submitFeesRequest _ _ _ := .ok "response"
  submitPaymentRequest _ _ _ := .ok "response"

/-- Without overflow checks a coin of five pays a price of almost 2 ^ 64. -/
theorem price_wrapsAround :
    coins false smallWallet (some ("pay:null:b", 18446744073709551615)) 2 =
        .ok ⟨["coin"], "pay:null:a", [⟨"pay:null:a", 4, none⟩,
          ⟨"pay:null:b", 18446744073709551615, none⟩]⟩ ∧
      ¬ CoinsBalance smallWallet (some ("pay:null:b", 18446744073709551615)) 2 := by
  refine ⟨by decide +kernel, fun h => ?_⟩
  exact h.in_range (by decide +kernel)

/-! ### The payments themselves -/

theorem payAPayee_coins {price : UInt64} {address response : String} {payment : PaymentTxn}
    (h : payAPayee overflowChecks world price address = .ok (payment, response)) :
    ∃ fee c, getTxnPrice world transferTxnType = .ok fee ∧
      coins overflowChecks world (some (address, price)) fee = .ok c ∧
      payment = ⟨price.toNat, false, c.inputs, c.outputs⟩ := by
  obtain ⟨fee, hfee, h⟩ := bind_eq_ok_iff.mp h
  obtain ⟨c, hc, h⟩ := bind_eq_ok_iff.mp h
  obtain ⟨did, -, h⟩ := bind_eq_ok_iff.mp h
  obtain ⟨result, -, h⟩ := bind_eq_ok_iff.mp h
  cases h
  exact ⟨fee, c, hfee, hc, rfl⟩

theorem payForTxn_coins {req txnType response : String} {payment : PaymentTxn}
    (h : payForTxn overflowChecks world req txnType = .ok (some payment, response)) :
    ∃ fee c, getTxnPrice world txnType = .ok fee ∧ fee ≠ 0 ∧
      coins overflowChecks world none fee = .ok c ∧
      payment = ⟨fee.toNat, false, c.inputs, c.outputs⟩ := by
  obtain ⟨fee, hfee, h⟩ := bind_eq_ok_iff.mp h
  split at h
  · obtain ⟨did, -, h⟩ := bind_eq_ok_iff.mp h
    obtain ⟨result, -, h⟩ := bind_eq_ok_iff.mp h
    cases h
  · rename_i hprice
    obtain ⟨c, hc, h⟩ := bind_eq_ok_iff.mp h
    obtain ⟨did, -, h⟩ := bind_eq_ok_iff.mp h
    obtain ⟨result, -, h⟩ := bind_eq_ok_iff.mp h
    cases h
    exact ⟨fee, c, hfee, hprice, hc, rfl⟩

end IndySdk.Vcx
