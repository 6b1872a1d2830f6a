import IndySdk.PaymentParams

/-!
# Values that are sent as they are written

A value is taken as it is written when it is nothing but its tuples, in parentheses and with a
comma between two, each of a recipient and an amount; and fees when every pair has one colon and
no type comes twice. Any other value that is not refused loses a part of itself.
-/

namespace IndySdk.Cli

open Outcome List AList

/-! ## Tuples of a value -/

def inParentheses (tuple : Text) : Text := '(' :: tuple ++ [')']

/-- The list of tuples, as it is written. -/
def writeTuples (tuples : List Text) : Text := [','].intercalate (tuples.map inParentheses)

def IsTuple (tuple : Text) : Prop := tuple ≠ [] ∧ ∀ c ∈ tuple, isTupleChar c = true

variable {tuple : Text}

theorem takeWhile_tuple (h : ∀ c ∈ tuple, isTupleChar c = true) (rest : Text) :
    (tuple ++ ')' :: rest).takeWhile isTupleChar = tuple ∧
      (tuple ++ ')' :: rest).dropWhile isTupleChar = ')' :: rest := by
  induction tuple with
  | nil => exact ⟨rfl, rfl⟩
  | cons c tuple ih =>
      obtain ⟨htake, hdrop⟩ := ih (fun x hx => h x (mem_cons_of_mem _ hx))
      have hc := h c mem_cons_self
      rw [cons_append, takeWhile_cons_of_pos hc, dropWhile_cons_of_pos hc, htake]
      exact ⟨rfl, hdrop⟩

theorem matchTuple_last (h : IsTuple tuple) :
    matchTuple (inParentheses tuple) = some (tuple, tuple.length + 2) := by
  obtain ⟨hne, hall⟩ := h
  obtain ⟨htake, hdrop⟩ := takeWhile_tuple hall []
  cases tuple with
  | nil => exact absurd rfl hne
  | cons c run =>
      rw [inParentheses, cons_append, matchTuple, htake, hdrop]
      rfl

theorem matchTuple_comma (h : IsTuple tuple) (rest : Text) :
    matchTuple (inParentheses tuple ++ ',' :: rest) = some (tuple, tuple.length + 3) := by
  obtain ⟨hne, hall⟩ := h
  obtain ⟨htake, hdrop⟩ := takeWhile_tuple hall (',' :: rest)
  have happend : inParentheses tuple ++ ',' :: rest = '(' :: (tuple ++ ')' :: ',' :: rest) := by
    rw [inParentheses, append_assoc]
    rfl
  cases tuple with
  | nil => exact absurd rfl hne
  | cons c run =>
      rw [happend, matchTuple, htake, hdrop]
      rfl

theorem length_inParentheses (tuple : Text) : (inParentheses tuple).length = tuple.length + 2 := by
  rw [inParentheses, length_append, length_cons]
  rfl

theorem inParentheses_ne_nil (tuple : Text) : inParentheses tuple ≠ [] := cons_ne_nil _ _

theorem extract_writeTuples {tuples : List Text} (h : ∀ t ∈ tuples, IsTuple t) :
    extractArrayTuples (writeTuples tuples) = tuples := by
  induction tuples with
  | nil => rfl
  | cons t tuples ih =>
      have ht := h t mem_cons_self
      have hrest := ih (fun x hx => h x (mem_cons_of_mem _ hx))
      cases tuples with
      | nil =>
          have hwrite : writeTuples [t] = inParentheses t := intercalate_singleton
          have hdrop : (inParentheses t).drop (t.length + 2) = [] :=
            drop_eq_nil_of_le (Nat.le_of_eq (length_inParentheses t))
          rw [hwrite, extractArrayTuples,
            GreedyPattern.findAll_match (Nat.succ_pos _) (matchTuple_last ht)
              (inParentheses_ne_nil t), hdrop]
          rfl
      | cons t' tuples =>
          have hwrite : writeTuples (t :: t' :: tuples) =
              inParentheses t ++ ',' :: writeTuples (t' :: tuples) := by
            rw [writeTuples, map_cons, map_cons, intercalate_cons_cons]
            rw [append_assoc]
            rfl
          have hdrop : (inParentheses t ++ ',' :: writeTuples (t' :: tuples)).drop (t.length + 3) =
              writeTuples (t' :: tuples) := by
            rw [show t.length + 3 = (inParentheses t).length + 1 by rw [length_inParentheses],
              drop_length_add_append]
            rfl
          rw [hwrite, extractArrayTuples,
            GreedyPattern.findAll_match (Nat.succ_pos _) (matchTuple_comma ht _)
              (append_ne_nil_of_left_ne_nil (inParentheses_ne_nil t) _), hdrop]
          exact congrArg (List.cons t) hrest

theorem isTuple_of_mem_extract {v : Text} (h : tuple ∈ extractArrayTuples v) :
    IsTuple tuple := by
  obtain ⟨suffix, consumed, hmatch⟩ := GreedyPattern.exists_of_mem_findAll h
  have hall : ∀ text : Text, ∀ c ∈ text.takeWhile isTupleChar, isTupleChar c = true :=
    fun text c hc => mem_takeWhile_imp hc
  rw [matchTuple.eq_def] at hmatch
  split at hmatch
  · rename_i text
    split at hmatch
    · rename_i c run _ htake _
      cases hmatch
      exact ⟨cons_ne_nil _ _, htake ▸ hall text⟩
    · rename_i c run _ _ htake _
      cases hmatch
      exact ⟨cons_ne_nil _ _, htake ▸ hall text⟩
    · cases hmatch
  · cases hmatch

/-! ## Two parts of a piece -/

/-- The piece is a name and an amount with one delimiter between them. -/
def SpellsPair (d : Char) (piece name : Text) (amount : ℕ) : Prop :=
  ∃ written, piece.splitOn d = [name, written] ∧ parseU64 written = some amount

/-- The piece has no amount: no second part, or one that is not an unsigned number of 64 bits. -/
def NoAmount (d : Char) (piece : Text) : Prop :=
  ∀ written, (piece.splitOn d)[1]? = some written → parseU64 written = none

variable {piece : Text}

theorem parsePair_eq_ok_iff {d : Char} {noName noAmount noNumber : String} {name : Text}
    {amount : ℕ} :
    parsePair d noName noAmount noNumber piece = .ok (name, amount) ↔
      ∃ written rest, piece.splitOn d = name :: written :: rest ∧
        parseU64 written = some amount := by
  rw [parsePair]
  constructor
  · intro h
    obtain ⟨name', hname, h⟩ := bind_eq_ok_iff.mp h
    obtain ⟨written, hwritten, h⟩ := bind_eq_ok_iff.mp h
    obtain ⟨amount', hamount, h⟩ := bind_eq_ok_iff.mp h
    cases h
    rw [ofOption_eq_ok] at hname hwritten hamount
    match hparts : piece.splitOn d, hname, hwritten with
    | name' :: written' :: rest, hname, hwritten =>
        cases hname
        cases hwritten
        exact ⟨_, _, rfl, hamount⟩
  · rintro ⟨written, rest, hparts, hamount⟩
    rw [hparts]
    dsimp only [getElem?_cons_zero, getElem?_cons_succ]
    rw [ofOption_some, ok_bind, ofOption_some, ok_bind, hamount]
    rfl

theorem parsePair_cases (d : Char) (noName noAmount noNumber : String) (piece : Text) :
    (∃ pair, parsePair d noName noAmount noNumber piece = .ok pair) ∧ ¬ NoAmount d piece ∨
      (∃ err, parsePair d noName noAmount noNumber piece = .err err) ∧ NoAmount d piece := by
  rw [parsePair, NoAmount]
  match hparts : piece.splitOn d with
  | [] => exact absurd hparts (splitOn_ne_nil d piece)
  | [name] => exact .inr ⟨⟨_, rfl⟩, fun written h => by cases h⟩
  | name :: written :: rest =>
      cases hamount : parseU64 written with
      | none =>
          refine .inr ⟨⟨⟨noNumber, []⟩, ?_⟩, fun written' h => ?_⟩
          · dsimp only [getElem?_cons_zero, getElem?_cons_succ]
            rw [ofOption_some, ok_bind, ofOption_some, ok_bind,
              hamount]
            rfl
          · cases h
            exact hamount
      | some amount =>
          refine .inl ⟨⟨(name, amount), ?_⟩, fun h => ?_⟩
          · dsimp only [getElem?_cons_zero, getElem?_cons_succ]
            rw [ofOption_some, ok_bind, ofOption_some, ok_bind,
              hamount]
            rfl
          · have hnone := h written rfl
            rw [hamount] at hnone
            cases hnone

theorem spellsPair_iff {d : Char} {noName noAmount noNumber : String} {name : Text} {amount : ℕ} :
    SpellsPair d piece name amount ↔
      parsePair d noName noAmount noNumber piece = .ok (name, amount) ∧
        (piece.splitOn d).length = 2 := by
  rw [parsePair_eq_ok_iff, SpellsPair]
  constructor
  · rintro ⟨written, hparts, hamount⟩
    refine ⟨⟨written, [], hparts, hamount⟩, ?_⟩
    rw [hparts]
    rfl
  · rintro ⟨⟨written, rest, hparts, hamount⟩, hlength⟩
    rw [hparts] at hlength
    cases rest with
    | nil => exact ⟨written, hparts, hamount⟩
    | cons x rest => simp at hlength

theorem mapM_refused {α β : Type} {f : α → CliResult β} (hf : ∀ a, f a ≠ .panic) {l : List α} :
    (∃ err, l.mapM f = .err err) ↔ ∃ a ∈ l, ∃ err, f a = .err err := by
  induction l with
  | nil =>
      constructor
      · rintro ⟨err, h⟩
        cases h
      · rintro ⟨a, ha, _⟩
        cases ha
  | cons a l ih =>
      rw [mapM_cons]
      cases ha : f a with
      | panic => exact absurd ha (hf a)
      | err err => exact iff_of_true ⟨err, rfl⟩ ⟨a, mem_cons_self, err, ha⟩
      | ok b =>
          have hrest : (∃ err, ((Outcome.ok b : CliResult β) >>= fun b => l.mapM f >>= fun bs =>
              pure (b :: bs)) = .err err) ↔ ∃ err, l.mapM f = .err err := by
            rw [ok_bind]
            cases l.mapM f with
            | ok bs => exact iff_of_false (fun ⟨_, h⟩ => by cases h) (fun ⟨_, h⟩ => by cases h)
            | err err => exact iff_of_true ⟨err, rfl⟩ ⟨err, rfl⟩
            | panic => exact iff_of_false (fun ⟨_, h⟩ => by cases h) (fun ⟨_, h⟩ => by cases h)
          rw [hrest, ih]
          constructor
          · rintro ⟨x, hx, herr⟩
            exact ⟨x, mem_cons_of_mem _ hx, herr⟩
          · rintro ⟨x, hx, err, herr⟩
            obtain rfl | hx := mem_cons.mp hx
            · rw [ha] at herr
              cases herr
            · exact ⟨x, hx, err, herr⟩

theorem exists_forall₂ {α β : Type} {p : α → β → Prop} {l : List α} (h : ∀ a ∈ l, ∃ b, p a b) :
    ∃ r, List.Forall₂ p l r := by
  induction l with
  | nil => exact ⟨[], .nil⟩
  | cons a l ih =>
      obtain ⟨b, hab⟩ := h a mem_cons_self
      obtain ⟨r, hr⟩ := ih (fun x hx => h x (mem_cons_of_mem _ hx))
      exact ⟨b :: r, .cons hab hr⟩

/-! ## Outputs -/

theorem parseOutput_eq_ok_iff {output : PaymentOutput} :
    parseOutput piece = .ok output ∧ (piece.splitOn ',').length = 2 ↔
      SpellsPair ',' piece output.recipient output.amount := by
  rw [spellsPair_iff, parseOutput]
  apply and_congr_left
  intro _
  constructor
  · intro h
    obtain ⟨pair, hpair, h⟩ := bind_eq_ok_iff.mp h
    cases h
    exact hpair
  · intro h
    rw [h]
    rfl

theorem parseOutput_cases (piece : Text) :
    (∃ output, parseOutput piece = .ok output) ∧ ¬ NoAmount ',' piece ∨
      (∃ err, parseOutput piece = .err err) ∧ NoAmount ',' piece := by
  obtain ⟨⟨pair, hpair⟩, hno⟩ | ⟨⟨err, herr⟩, hno⟩ := parsePair_cases ','
    "Invalid format of Outputs: Payment Address not found"
    "Invalid format of Outputs: Amount not found"
    "Invalid format of Outputs: Amount must be integer and greater then 0" piece
  · refine .inl ⟨⟨⟨pair.1, pair.2⟩, ?_⟩, hno⟩
    rw [parseOutput, hpair]
    rfl
  · refine .inr ⟨⟨err, ?_⟩, hno⟩
    rw [parseOutput, herr]
    rfl

def Refused {α : Type} (r : CliResult α) : Prop := ∃ err, r = .err err

/-- A value that is refused: there is no tuple in it, or one of them has no amount. -/
def Unreadable (v : Text) : Prop :=
  extractArrayTuples v = [] ∨ ∃ tuple ∈ extractArrayTuples v, NoAmount ',' tuple

/-- A value that is nothing but its tuples, each of two parts. -/
def WellWritten (v : Text) : Prop :=
  v = writeTuples (extractArrayTuples v) ∧
    ∀ tuple ∈ extractArrayTuples v, (tuple.splitOn ',').length = 2

theorem refused_outputs_iff (tuples : List Text) :
    Refused (parsePaymentOutputs tuples) ↔ tuples = [] ∨ ∃ tuple ∈ tuples, NoAmount ',' tuple := by
  have hpanic : ∀ piece, parseOutput piece ≠ .panic := by
    intro piece h
    obtain ⟨⟨output, hok⟩, _⟩ | ⟨⟨err, herr⟩, _⟩ := parseOutput_cases piece
    · rw [h] at hok
      cases hok
    · rw [h] at herr
      cases herr
  have hone : ∀ piece, (∃ err, parseOutput piece = .err err) ↔ NoAmount ',' piece := by
    intro piece
    obtain ⟨⟨output, hok⟩, hno⟩ | ⟨herr, hno⟩ := parseOutput_cases piece
    · rw [hok]
      exact iff_of_false (fun ⟨_, h⟩ => by cases h) hno
    · exact iff_of_true herr hno
  rw [Refused, parsePaymentOutputs]
  cases tuples with
  | nil => exact iff_of_true ⟨_, rfl⟩ (.inl rfl)
  | cons tuple tuples =>
      rw [isEmpty_cons, if_neg Bool.false_ne_true, or_iff_right (cons_ne_nil _ _)]
      have hmap := @mapM_refused _ _ parseOutput hpanic (tuple :: tuples)
      simp only [hone] at hmap
      rw [← hmap]
      cases (tuple :: tuples).mapM parseOutput with
      | ok outputs => exact iff_of_false (fun ⟨_, h⟩ => by cases h) (fun ⟨_, h⟩ => by cases h)
      | err err => exact iff_of_true ⟨err, rfl⟩ ⟨err, rfl⟩
      | panic => exact iff_of_false (fun ⟨_, h⟩ => by cases h) (fun ⟨_, h⟩ => by cases h)

/-- The value is a list of tuples with commas between them, of these recipients and amounts. -/
def SpellsOutputs (v : Text) (outputs : List PaymentOutput) : Prop :=
  ∃ tuples, v = writeTuples tuples ∧ (∀ tuple ∈ tuples, IsTuple tuple) ∧
    List.Forall₂ (fun tuple output => SpellsPair ',' tuple output.recipient output.amount)
      tuples outputs

/-- The value is refused, or sent as it is spelled. -/
def FaithfulOutputs (v : Text) (sent : CliResult Json) : Prop :=
  Refused sent ∨
    ∃ outputs, SpellsOutputs v outputs ∧ sent = .ok (.arr (outputs.map PaymentOutput.toJson))

theorem faithfulOutputs_iff (v : Text) :
    FaithfulOutputs v (parsePaymentOutputs (extractArrayTuples v)) ↔
      WellWritten v ∨ Unreadable v := by
  rw [FaithfulOutputs, refused_outputs_iff, or_comm]
  apply or_congr_left'
  intro hreadable
  constructor
  · rintro ⟨outputs, ⟨tuples, hv, htuples, hspell⟩, _⟩
    have hextract : extractArrayTuples v = tuples := by
      rw [hv]
      exact extract_writeTuples htuples
    rw [WellWritten, hextract]
    refine ⟨hv, ?_⟩
    intro tuple htuple
    obtain ⟨output, _, written, hparts, _⟩ := hspell.exists_of_mem htuple
    rw [hparts]
    rfl
  · rintro ⟨hv, hlength⟩
    rw [not_or, not_exists] at hreadable
    obtain ⟨hsome, hamounts⟩ := hreadable
    have hparse : ∀ tuple ∈ extractArrayTuples v, ∃ output, parseOutput tuple = .ok output := by
      intro tuple htuple
      obtain ⟨hok, _⟩ | ⟨_, hno⟩ := parseOutput_cases tuple
      · exact hok
      · exact absurd ⟨htuple, hno⟩ (hamounts tuple)
    obtain ⟨outputs, houtputs⟩ := exists_forall₂ hparse
    refine ⟨outputs, ⟨extractArrayTuples v, hv, fun _ => isTuple_of_mem_extract, ?_⟩, ?_⟩
    · rw [List.forall₂_iff_zip] at houtputs ⊢
      refine ⟨houtputs.1, fun {tuple output} hmem => ?_⟩
      exact parseOutput_eq_ok_iff.mp
        ⟨houtputs.2 hmem, hlength tuple (of_mem_zip hmem).1⟩
    · rw [parsePaymentOutputs, if_neg (fun h => hsome (isEmpty_iff.mp h)),
        Outcome.mapM_eq_ok_iff_forall₂.mpr houtputs]
      rfl

/-! ### Through the parameters of a command -/

section

variable (params : CommandParams) (v : Text)

theorem refused_outputs_nil : Refused (parsePaymentOutputs []) := ⟨_, rfl⟩

theorem sentOutputs_cases :
    sentOutputs (params.insert "outputs".toList v) = parsePaymentOutputs (extractArrayTuples v) ∨
      Refused (sentOutputs (params.insert "outputs".toList v)) ∧
        Refused (parsePaymentOutputs (extractArrayTuples v)) := by
  rw [sentOutputs, getStrTupleArrayParam, lookup_insert]
  cases v with
  | nil => exact .inr ⟨⟨_, rfl⟩, refused_outputs_nil⟩
  | cons c v =>
      dsimp only
      rw [isEmpty_cons, if_neg Bool.false_ne_true]
      by_cases hnone : (extractArrayTuples (c :: v)).length = 0
      · rw [if_pos hnone]
        rw [length_eq_zero_iff] at hnone
        rw [hnone]
        exact .inr ⟨⟨_, rfl⟩, refused_outputs_nil⟩
      · rw [if_neg hnone]
        exact .inl rfl

theorem sentOutputs_faithful_iff :
    FaithfulOutputs v (sentOutputs (params.insert "outputs".toList v)) ↔
      WellWritten v ∨ Unreadable v := by
  rw [← faithfulOutputs_iff]
  obtain heq | ⟨hsent, hparse⟩ := sentOutputs_cases params v
  · rw [heq]
  · exact iff_of_true (.inl hsent) (.inl hparse)

/-- The list is refused, or given to the library as it is spelled. -/
def FaithfulFeesOutputs (v : Text) (sent : CliResult (Option Json)) : Prop :=
  Refused sent ∨
    ∃ outputs, SpellsOutputs v outputs ∧ sent = .ok (some (.arr (outputs.map PaymentOutput.toJson)))

theorem getOptStrTupleArrayParam_insert (name : Text) :
    getOptStrTupleArrayParam name (params.insert name v) = .ok (some (extractArrayTuples v)) := by
  rw [getOptStrTupleArrayParam, lookup_insert]
  cases v <;> rfl

theorem sentFeesOutputs_faithful_iff :
    FaithfulFeesOutputs v (sentFeesOutputs (params.insert "fees_outputs".toList v)) ↔
      "fees_inputs".toList ∈ params ∧ (WellWritten v ∨ Unreadable v) := by
  have hname : "fees_inputs".toList ≠ "fees_outputs".toList := by decide
  rw [← faithfulOutputs_iff, sentFeesOutputs, getOptStrTupleArrayParam_insert,
    getOptStrArrayParam, lookup_insert_ne hname]
  cases hinputs : params.lookup "fees_inputs".toList with
  | none =>
      refine iff_of_false ?_ (fun h => lookup_eq_none.mp hinputs h.1)
      rintro (⟨err, h⟩ | ⟨outputs, _, h⟩) <;> cases h
  | some inputs =>
      have hmem : "fees_inputs".toList ∈ params := by
        rw [← lookup_isSome, hinputs]
        rfl
      have hcall : ∀ inputs : List Text,
          (feesCall (some inputs) (some (extractArrayTuples v)) >>= fun call =>
            (.ok (call.map Prod.snd) : CliResult (Option Json))) =
          some <$> parsePaymentOutputs (extractArrayTuples v) := by
        intro inputs
        simp only [feesCall, parsePaymentInputs, ok_bind]
        cases parsePaymentOutputs (extractArrayTuples v) <;> rfl
      have hsent : (if inputs.isEmpty then .ok (some []) else .ok (some (inputs.splitOn ',')) :
            CliResult (Option (List Text))) >>= (fun feesInputs =>
              feesCall feesInputs (some (extractArrayTuples v)) >>= fun call =>
                (.ok (call.map Prod.snd) : CliResult (Option Json))) =
          some <$> parsePaymentOutputs (extractArrayTuples v) := by
        split_ifs
        · exact hcall []
        · exact hcall _
      rw [and_iff_right hmem]
      refine Iff.trans (iff_of_eq (congrArg (FaithfulFeesOutputs v) hsent)) ?_
      rw [FaithfulFeesOutputs, FaithfulOutputs]
      cases parsePaymentOutputs (extractArrayTuples v) with
      | err err => exact iff_of_true (.inl ⟨err, rfl⟩) (.inl ⟨err, rfl⟩)
      | panic =>
          constructor
          · rintro (⟨err, h⟩ | ⟨outputs, _, h⟩) <;> cases h
          · rintro (⟨err, h⟩ | ⟨outputs, _, h⟩) <;> cases h
      | ok json =>
          constructor
          · rintro (⟨err, h⟩ | ⟨outputs, hspell, h⟩)
            · cases h
            · cases h
              exact .inr ⟨outputs, hspell, rfl⟩
          · rintro (⟨err, h⟩ | ⟨outputs, hspell, h⟩)
            · cases h
            · cases h
              exact .inr ⟨outputs, hspell, rfl⟩

end

/-! ## Fees -/

/-- The value is a list of pairs with commas between them, of these types and amounts. -/
def SpellsFees (v : Text) (fees : List (Text × ℕ)) : Prop :=
  List.Forall₂ (fun piece fee => SpellsPair ':' piece fee.1 fee.2) (v.splitOn ',') fees

/-- The value is refused, or sent as a map with each of the pairs that it spells. -/
def FaithfulFees (v : Text) (sent : CliResult Json) : Prop :=
  Refused sent ∨
    ∃ fees members, SpellsFees v fees ∧ members.Perm fees ∧ sent = .ok (feesJson members)

/-- The type of a pair: what stands before the first colon. -/
def feeType (piece : Text) : Text := (piece.splitOn ':').headD []

/-- A value whose pairs have one colon each, and no type twice. -/
def WellWrittenFees (v : Text) : Prop :=
  (∀ piece ∈ v.splitOn ',', (piece.splitOn ':').length = 2) ∧ ((v.splitOn ',').map feeType).Nodup

/-- A value that is refused: it is empty, or a pair has no amount. -/
def UnreadableFees (v : Text) : Prop := v = [] ∨ ∃ piece ∈ v.splitOn ',', NoAmount ':' piece

theorem parseFee_eq_ok_iff {fee : Text × ℕ} :
    parseFee piece = .ok fee ∧ (piece.splitOn ':').length = 2 ↔
      SpellsPair ':' piece fee.1 fee.2 := by
  rw [spellsPair_iff, parseFee]

theorem feeType_of_parseFee {fee : Text × ℕ} (h : parseFee piece = .ok fee) :
    feeType piece = fee.1 := by
  obtain ⟨written, rest, hparts, _⟩ := parsePair_eq_ok_iff.mp h
  rw [feeType, hparts]
  rfl

def insertFees (feesMap : AssocMap Text ℕ) (fees : List (Text × ℕ)) : AssocMap Text ℕ :=
  fees.foldl (fun m fee => m.insert fee.1 fee.2) feesMap

theorem foldlM_insertFee {pieces : List Text} {fees : List (Text × ℕ)}
    (h : List.Forall₂ (fun piece fee => parseFee piece = .ok fee) pieces fees)
    (feesMap : AssocMap Text ℕ) :
    pieces.foldlM insertFee feesMap = .ok (insertFees feesMap fees) := by
  induction h generalizing feesMap with
  | nil => rfl
  | @cons piece fee pieces fees hfee _ ih =>
      rw [foldlM_cons, insertFee, hfee, ok_bind, ok_bind, ih]
      rfl

theorem refused_foldlM_insertFee_iff (pieces : List Text) (feesMap : AssocMap Text ℕ) :
    Refused (pieces.foldlM insertFee feesMap) ↔ ∃ piece ∈ pieces, NoAmount ':' piece := by
  induction pieces generalizing feesMap with
  | nil =>
      constructor
      · rintro ⟨err, h⟩
        cases h
      · rintro ⟨piece, h, _⟩
        cases h
  | cons piece pieces ih =>
      rw [foldlM_cons, insertFee, exists_mem_cons_iff]
      obtain ⟨⟨fee, hfee⟩, hno⟩ | ⟨⟨err, herr⟩, hno⟩ := parsePair_cases ':'
        "Invalid format of Fees: Type not found" "Invalid format of Fees: Amount not found"
        "Invalid format of Fees: Amount must greater or equal zero" piece
      · rw [← parseFee] at hfee
        rw [hfee, ok_bind, ok_bind, or_iff_right hno]
        exact ih _
      · rw [← parseFee] at herr
        rw [herr]
        exact iff_of_true ⟨err, rfl⟩ (.inl hno)

theorem entries_insertFees {fees : List (Text × ℕ)} (hnodup : (fees.map Prod.fst).Nodup)
    (feesMap : AssocMap Text ℕ) (hnew : ∀ fee ∈ fees, fee.1 ∉ feesMap) :
    ((insertFees feesMap fees).entries.map (fun e => (e.1, e.2))).Perm
      (fees ++ feesMap.entries.map (fun e => (e.1, e.2))) := by
  induction fees generalizing feesMap with
  | nil => exact List.Perm.refl _
  | cons fee fees ih =>
      rw [map_cons, nodup_cons] at hnodup
      have hfee := hnew fee mem_cons_self
      have hrest : ∀ other ∈ fees, other.1 ∉ feesMap.insert fee.1 fee.2 := by
        intro other hother hin
        obtain he | hin := mem_insert _ |>.mp hin
        · exact hnodup.1 (he ▸ mem_map_of_mem hother)
        · exact hnew other (mem_cons_of_mem _ hother) hin
      have hperm := ih hnodup.2 (feesMap.insert fee.1 fee.2) hrest
      rw [entries_insert_of_notMem hfee, map_cons] at hperm
      exact hperm.trans perm_middle

theorem feesJson_injective : Function.Injective feesJson := by
  intro fees fees' h
  apply map_injective_iff.mpr _ (Json.obj.inj h)
  rintro ⟨type, amount⟩ ⟨type', amount'⟩ he
  rw [Prod.mk.injEq, String.ofList_inj, Json.int.injEq, Int.natCast_inj] at he
  exact Prod.ext he.1 he.2

theorem map_feeType {pieces : List Text} {fees : List (Text × ℕ)}
    (h : List.Forall₂ (fun piece fee => parseFee piece = .ok fee) pieces fees) :
    pieces.map feeType = fees.map Prod.fst := by
  induction h with
  | nil => rfl
  | cons hfee _ ih => rw [map_cons, map_cons, feeType_of_parseFee hfee, ih]

theorem parsePaymentFees_faithful_iff (order : MapOrder) (v : Text) :
    FaithfulFees v (parsePaymentFees order (v.splitOn ',')) ↔
      WellWrittenFees v ∨ ∃ piece ∈ v.splitOn ',', NoAmount ':' piece := by
  by_cases hbad : ∃ piece ∈ v.splitOn ',', NoAmount ':' piece
  · obtain ⟨err, herr⟩ := (refused_foldlM_insertFee_iff (v.splitOn ',') ∅).mpr hbad
    refine iff_of_true (.inl ⟨err, ?_⟩) (.inr hbad)
    rw [parsePaymentFees, herr]
    rfl
  · rw [or_iff_left hbad]
    have hparse : ∀ piece ∈ v.splitOn ',', ∃ fee, parseFee piece = .ok fee := by
      intro piece hpiece
      obtain ⟨hok, _⟩ | ⟨_, hno⟩ := parsePair_cases ':' "Invalid format of Fees: Type not found"
        "Invalid format of Fees: Amount not found"
        "Invalid format of Fees: Amount must greater or equal zero" piece
      · exact hok
      · exact absurd ⟨piece, hpiece, hno⟩ hbad
    obtain ⟨fees, hfees⟩ := exists_forall₂ hparse
    have hsent : parsePaymentFees order (v.splitOn ',') =
        .ok (feesJson (order.iterate (insertFees ∅ fees))) := by
      rw [parsePaymentFees, foldlM_insertFee hfees]
      rfl
    have hiterate := order.perm (insertFees ∅ fees)
    rw [hsent, WellWrittenFees, map_feeType hfees]
    constructor
    · rintro (⟨err, h⟩ | ⟨fees', members, hspell, hperm, h⟩)
      · cases h
      · have hmembers : order.iterate (insertFees ∅ fees) = members :=
          feesJson_injective (Outcome.ok.inj h)
        have hlength : ∀ piece ∈ v.splitOn ',', (piece.splitOn ':').length = 2 := by
          intro piece hpiece
          obtain ⟨fee, _, hone⟩ := hspell.exists_of_mem hpiece
          exact (parseFee_eq_ok_iff.mpr hone).2
        have hsame : List.Forall₂ (fun piece fee => parseFee piece = .ok fee) (v.splitOn ',')
            fees' := hspell.imp (fun _ _ hone => (parseFee_eq_ok_iff.mpr hone).1)
        refine ⟨hlength, ?_⟩
        rw [← map_feeType hfees, map_feeType hsame, ← (hperm.map Prod.fst).nodup_iff, ← hmembers,
          (hiterate.map Prod.fst).nodup_iff, map_map]
        exact (insertFees ∅ fees).nodupKeys
    · rintro ⟨hlength, hnodup⟩
      refine .inr ⟨fees, _, ?_, ?_, rfl⟩
      · rw [SpellsFees]
        rw [List.forall₂_iff_zip] at hfees ⊢
        refine ⟨hfees.1, fun {piece fee} hmem => ?_⟩
        exact parseFee_eq_ok_iff.mp ⟨hfees.2 hmem, hlength piece (of_mem_zip hmem).1⟩
      · apply hiterate.trans
        have hperm := entries_insertFees hnodup ∅ (fun fee _ => notMem_empty fee.1)
        rwa [empty_entries, map_nil, append_nil] at hperm

theorem sentFees_faithful_iff (order : MapOrder) (params : CommandParams) (v : Text) :
    FaithfulFees v (sentFees order (params.insert "fees".toList v)) ↔
      WellWrittenFees v ∨ UnreadableFees v := by
  rw [sentFees, getStrArrayParam, lookup_insert]
  cases v with
  | nil => exact iff_of_true (.inl ⟨_, rfl⟩) (.inr (.inl rfl))
  | cons c v =>
      rw [UnreadableFees, or_iff_right (cons_ne_nil c v)]
      exact parsePaymentFees_faithful_iff order (c :: v)

/-- Outputs, outputs of fees and fees are refused or sent as they are spelled exactly where the
value is well written or refused; the outputs of fees only beside their inputs. -/
theorem paymentParams_faithful_iff (order : MapOrder) (params : CommandParams) (v : Text) :
    (FaithfulOutputs v (sentOutputs (params.insert "outputs".toList v)) ↔
        WellWritten v ∨ Unreadable v) ∧
      (FaithfulFeesOutputs v (sentFeesOutputs (params.insert "fees_outputs".toList v)) ↔
        "fees_inputs".toList ∈ params ∧ (WellWritten v ∨ Unreadable v)) ∧
      (FaithfulFees v (sentFees order (params.insert "fees".toList v)) ↔
        WellWrittenFees v ∨ UnreadableFees v) :=
  ⟨sentOutputs_faithful_iff params v, sentFeesOutputs_faithful_iff params v,
    sentFees_faithful_iff order params v⟩

/-- The order in which the entries are kept. -/
def keptOrder : MapOrder where
  iterate m := m.entries.map (fun e => (e.1, e.2))
  perm _ := List.Perm.refl _

/-- A tuple that is not closed is left out of the payment, a third part of a tuple is dropped, and
of two fees of one type only the last is set. -/
theorem parts_dropped :
    (sentOutputs (AList.insert "outputs".toList "(a,10),(b,5".toList ∅) =
        .ok (.arr [PaymentOutput.toJson ⟨['a'], 10⟩]) ∧
      ¬ FaithfulOutputs "(a,10),(b,5".toList
        (sentOutputs (AList.insert "outputs".toList "(a,10),(b,5".toList ∅))) ∧
    ¬ FaithfulOutputs "(a,10,5)".toList
      (sentOutputs (AList.insert "outputs".toList "(a,10,5)".toList ∅)) ∧
    ¬ FaithfulFees "1:100,1:200".toList
      (sentFees keptOrder (AList.insert "fees".toList "1:100,1:200".toList ∅)) := by
  have hamount : ∀ {d : Char} {piece : Text} {n : ℕ},
      ((piece.splitOn d)[1]?).bind parseU64 = some n → ¬ NoAmount d piece := by
    intro d piece n h hno
    obtain ⟨written, hwritten, hparse⟩ := Option.bind_eq_some_iff.mp h
    rw [hno written hwritten] at hparse
    cases hparse
  refine ⟨⟨?_, ?_⟩, ?_, ?_⟩
  · rw [sentOutputs, getStrTupleArrayParam, lookup_insert]
    rfl
  · have hextract : extractArrayTuples "(a,10),(b,5".toList = [['a', ',', '1', '0']] := by decide
    rw [sentOutputs_faithful_iff, WellWritten, Unreadable, hextract]
    rintro (⟨h, _⟩ | h | ⟨tuple, htuple, hno⟩)
    · revert h
      decide
    · cases h
    · rw [mem_singleton.mp htuple] at hno
      exact hamount (show _ = some 10 by decide) hno
  · have hextract : extractArrayTuples "(a,10,5)".toList = [['a', ',', '1', '0', ',', '5']] := by
      decide
    rw [sentOutputs_faithful_iff, WellWritten, Unreadable, hextract]
    rintro (⟨_, h⟩ | h | ⟨tuple, htuple, hno⟩)
    · have hlength := h _ (mem_singleton.mpr rfl)
      revert hlength
      decide
    · cases h
    · rw [mem_singleton.mp htuple] at hno
      exact hamount (show _ = some 10 by decide) hno
  · have hpieces : "1:100,1:200".toList.splitOn ',' =
        [['1', ':', '1', '0', '0'], ['1', ':', '2', '0', '0']] := by decide
    rw [sentFees_faithful_iff, WellWrittenFees, UnreadableFees, hpieces]
    rintro (⟨_, h⟩ | h | ⟨piece, hpiece, hno⟩)
    · revert h
      decide
    · revert h
      decide
    · obtain rfl | hpiece := mem_cons.mp hpiece
      · exact hamount (show _ = some 100 by decide) hno
      · rw [mem_singleton.mp hpiece] at hno
        exact hamount (show _ = some 200 by decide) hno

end IndySdk.Cli
