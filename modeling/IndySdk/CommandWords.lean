import IndySdk.CommandLine

/-!
# What the parameter parser makes of the words of a line

A line is its words. The parser takes the first as the main parameter, if the command has one,
and each other word as a name with or without a value. It accepts a line exactly when every word
can be read and no word repeats a name that was given with a value before; what it accepts it
enters in the order of the words.
-/

namespace IndySdk.Cli

open Outcome QuotedWords List Option AList

/-- A text without the quotes around it. -/
def withoutQuotes : Text → Text
  | [] => []
  | c :: s => if c = '"' ∧ s.getLast? = some '"' then s.dropLast else c :: s

theorem withoutQuotes_quoted (v : Text) : withoutQuotes ('"' :: v ++ ['"']) = v := by
  rw [cons_append, withoutQuotes, if_pos ⟨rfl, getLast?_concat⟩, dropLast_concat]

theorem withoutQuotes_of_ne {c : Char} (hc : c ≠ '"') (s : Text) :
    withoutQuotes (c :: s) = c :: s := if_neg fun h => hc h.1

theorem trimQuotes_eq (s : Text) : trimQuotes s = .ok (withoutQuotes s) := by
  cases s with
  | nil => rfl
  | cons c s =>
      by_cases h : c = '"' ∧ s.getLast? = some '"'
      · obtain ⟨rfl, hlast⟩ := h
        obtain ⟨v, rfl⟩ := getLast?_eq_some_iff.mp hlast
        have hwidth : byteWidth '"' = 1 := rfl
        have hlen : ByteSlices.byteLen byteWidth ('"' :: (v ++ ['"'])) =
            ByteSlices.byteLen byteWidth (['"'] ++ v) + 1 := by
          simp only [ByteSlices.byteLen_cons, ByteSlices.byteLen_append, ByteSlices.byteLen_nil,
            hwidth]
          omega
        have hone : ByteSlices.byteLen byteWidth ['"'] = 1 := rfl
        have hslice := ByteSlices.slice_append (ε := ParseError) byteWidth_pos ['"'] v ['"']
        rw [hone] at hslice
        rw [trimQuotes, if_pos ⟨by rw [hlen, ByteSlices.byteLen_append, hone]; omega, rfl,
          by rw [← cons_append]; exact getLast?_concat⟩, hlen, Nat.add_sub_cancel,
          ← cons_append, withoutQuotes_quoted]
        exact hslice
      · have hkeep : ¬ (1 < ByteSlices.byteLen byteWidth (c :: s) ∧
            (c :: s).head? = some '"' ∧ (c :: s).getLast? = some '"') := by
          rintro ⟨hlen, hhead, hlast⟩
          have hc : c = '"' := Option.some.inj hhead
          cases s with
          | nil =>
              rw [hc] at hlen
              exact absurd hlen (by decide)
          | cons d s => exact h ⟨hc, by rwa [getLast?_cons_cons] at hlast⟩
        rw [trimQuotes, if_neg hkeep, withoutQuotes, if_neg h]

variable (unescape : Text → Option Text) (command : CommandMetadata)

/-- A word that can be read as a parameter of the command. -/
def FineParam (g : Text × Option Text) : Prop :=
  ∃ p, command.params.find? (fun p => p.name == g.1) = some p ∧
    match g.2 with
    | some v => (unescape (withoutQuotes v)).isSome = true
    | none => p.isDeferred = true

/-- A parameter entered into what was parsed before. -/
def enter (parsed : Parsed) (g : Text × Option Text) : Parsed :=
  match g.2 with
  | some v => { parsed with res := parsed.res.insert g.1 ((unescape (withoutQuotes v)).getD []) }
  | none => { parsed with deferredParams := parsed.deferredParams ++ [g.1] }

variable {name : Text} {p : ParamMetadata} {parsed : Parsed}

theorem find_name (h : command.params.find? (fun p => p.name == name) = some p) : p.name = name :=
  beq_iff_eq.mp (find?_some (p := fun p : ParamMetadata => p.name == name) h)

theorem enter_value {v u : Text} (hu : unescape (withoutQuotes v) = some u) :
    enter unescape parsed (name, some v) =
      { parsed with res := parsed.res.insert name u } := by
  rw [enter]
  dsimp only
  rw [hu]
  rfl

theorem takeParam_eq_ok_iff {parsed' : Parsed} {param : Text} :
    takeParam unescape command parsed param = .ok parsed' ↔
      (splitAtEquals param).1 ∉ parsed.res ∧ FineParam unescape command (splitAtEquals param) ∧
        parsed' = enter unescape parsed (splitAtEquals param) := by
  generalize hg : splitAtEquals param = g
  obtain ⟨name, value⟩ := g
  rw [takeParam, hg]
  by_cases hmem : name ∈ parsed.res
  · rw [if_pos hmem]
    exact ⟨fun h => absurd h (err_ne_ok _ _), fun h => absurd hmem h.1⟩
  rw [if_neg hmem]
  cases hfind : command.params.find? (fun p => p.name == name) with
  | none =>
      refine ⟨fun h => absurd h (err_ne_ok _ _), ?_⟩
      rintro ⟨_, ⟨p, hp, _⟩, _⟩
      rw [hfind] at hp
      cases hp
  | some p =>
      have hname := find_name command hfind
      cases value with
      | some v =>
          dsimp only
          rw [trimQuotes_eq, ok_bind, bind_eq_ok_iff]
          constructor
          · rintro ⟨u, hu, hok⟩
            rw [ofOption_eq_ok] at hu
            rw [Outcome.ok.injEq] at hok
            refine ⟨hmem, ⟨p, hfind, isSome_iff_exists.mpr ⟨u, hu⟩⟩, ?_⟩
            rw [← hok, enter_value unescape hu, hname]
          · rintro ⟨_, ⟨_, _, hsome⟩, hp'⟩
            obtain ⟨u, hu⟩ := isSome_iff_exists.mp hsome
            refine ⟨u, ofOption_eq_ok.mpr hu, ?_⟩
            rw [hp', enter_value unescape hu, hname]
      | none =>
          dsimp only
          by_cases hd : p.isDeferred = true
          · rw [if_pos hd, Outcome.ok.injEq, hname]
            exact ⟨fun h => ⟨hmem, ⟨p, hfind, hd⟩, h.symm⟩, fun h => h.2.2.symm⟩
          · rw [if_neg hd]
            refine ⟨fun h => absurd h (err_ne_ok _ _), ?_⟩
            rintro ⟨_, ⟨p', hp', hd'⟩, _⟩
            rw [hfind] at hp'
            cases hp'
            exact absurd hd' hd

theorem takeParam_ne_panic (parsed : Parsed) (param : Text) :
    takeParam unescape command parsed param ≠ .panic := by
  rw [takeParam]
  split
  · exact err_ne_panic _
  · split
    · exact err_ne_panic _
    · split
      · rw [trimQuotes_eq, ok_bind]
        refine bind_ne_panic ?_ fun _ => ok_ne_panic _
        cases unescape (withoutQuotes _) with
        | none => exact err_ne_panic _
        | some u => exact ok_ne_panic _
      · split
        · exact ok_ne_panic _
        · exact err_ne_panic _

theorem parseRest_step (parsed : Parsed) (s : Text) :
    parseRest unescape command parsed s =
      if (firstWord commandQuotes s).1 = [] then .ok parsed
      else takeParam unescape command parsed (firstWord commandQuotes s).1 >>=
        fun parsed => parseRest unescape command parsed
          (firstWord commandQuotes s).2 := by
  rw [parseRest]
  split
  next word tail h =>
    rw [splitFirstWord_eq, Outcome.ok.injEq] at h
    rw [h]
    by_cases hne : word = []
    · rw [dif_pos hne, if_pos hne]
    · rw [dif_neg hne, if_neg hne]
      cases takeParam unescape command parsed word with
      | ok parsed => rfl
      | err e => rfl
      | panic => rfl
  next e h =>
    rw [splitFirstWord_eq] at h
    cases h
  next h =>
    rw [splitFirstWord_eq] at h
    cases h

theorem parseRest_eq (parsed : Parsed) (params : Text) :
    parseRest unescape command parsed params =
      (QuotedWords.words commandQuotes params).foldlM (takeParam unescape command) parsed := by
  induction params using QuotedWords.words.induct commandQuotes generalizing parsed with
  | case1 s hnil =>
      rw [words_of_nil _ hnil, parseRest_step, if_pos hnil]
      rfl
  | case2 s hne ih =>
      rw [words_of_ne_nil _ hne, parseRest_step, if_neg hne, foldlM_cons]
      exact congrArg _ (funext fun parsed => ih parsed)

/-- A name is not repeated once it has been given with a value. -/
def Once (gs : List (Text × Option Text)) : Prop :=
  gs.Pairwise fun g g' => g'.1 = g.1 → g.2 = none

theorem once_cons {g : Text × Option Text} {gs : List (Text × Option Text)} :
    Once (g :: gs) ↔ (∀ g' ∈ gs, g'.1 = g.1 → g.2 = none) ∧ Once gs :=
  pairwise_cons

theorem mem_enter {g : Text × Option Text} :
    name ∈ (enter unescape parsed g).res ↔ name ∈ parsed.res ∨ name = g.1 ∧ g.2.isSome := by
  obtain ⟨n, v⟩ := g
  cases v with
  | none => simp [enter]
  | some v => simp [enter, or_comm]

theorem foldlM_takeParam_eq_ok_iff {us : List Text} {parsed' : Parsed} :
    us.foldlM (takeParam unescape command) parsed = .ok parsed' ↔
      (∀ g ∈ us.map splitAtEquals, FineParam unescape command g ∧ g.1 ∉ parsed.res) ∧
        Once (us.map splitAtEquals) ∧
        parsed' = (us.map splitAtEquals).foldl (enter unescape) parsed := by
  induction us generalizing parsed with
  | nil =>
      rw [foldlM_nil, map_nil, foldl_nil]
      simp [Once, eq_comm]
  | cons u us ih =>
      rw [foldlM_cons, bind_eq_ok_iff, map_cons, foldl_cons,
        once_cons, forall_mem_cons]
      constructor
      · rintro ⟨parsed₁, hu, hrest⟩
        obtain ⟨hnot, hfine, rfl⟩ := (takeParam_eq_ok_iff unescape command).mp hu
        obtain ⟨hall, honce, hres⟩ := ih.mp hrest
        refine ⟨⟨⟨hfine, hnot⟩, fun g hg => ⟨(hall g hg).1, fun hmem => (hall g hg).2
          ((mem_enter unescape).mpr (.inl hmem))⟩⟩, ⟨fun g hg heq => ?_, honce⟩, hres⟩
        by_contra hsome
        exact (hall g hg).2 ((mem_enter unescape).mpr
          (.inr ⟨heq, isSome_iff_ne_none.mpr hsome⟩))
      · rintro ⟨⟨⟨hfine, hnot⟩, hall⟩, ⟨hfirst, honce⟩, hres⟩
        refine ⟨_, (takeParam_eq_ok_iff unescape command).mpr ⟨hnot, hfine, rfl⟩,
          ih.mpr ⟨fun g hg => ⟨(hall g hg).1, fun hmem => ?_⟩, honce, hres⟩⟩
        obtain hmem | ⟨heq, hsome⟩ := (mem_enter unescape).mp hmem
        · exact (hall g hg).2 hmem
        · rw [hfirst g hg heq] at hsome
          cases hsome

theorem foldlM_takeParam_ne_panic (us : List Text) (parsed : Parsed) :
    us.foldlM (takeParam unescape command) parsed ≠ .panic := by
  induction us generalizing parsed with
  | nil => exact ok_ne_panic _
  | cons u us ih =>
      rw [foldlM_cons]
      exact bind_ne_panic (takeParam_ne_panic unescape command parsed u) fun _ => ih _

/-! ## Whole lines -/

/-- The words of a line after its main parameter. -/
def otherWords (params : Text) : List Text :=
  match command.mainParam with
  | none => QuotedWords.words commandQuotes params
  | some _ => (QuotedWords.words commandQuotes params).tail

/-- The parameters that a line gives, in order, each with the text that stands for its value. -/
def given (params : Text) : List (Text × Option Text) :=
  match command.mainParam, QuotedWords.words commandQuotes params with
  | some paramMetadata, word :: words =>
      (paramMetadata.name, some word) :: words.map splitAtEquals
  | some _, [] => []
  | none, words => words.map splitAtEquals

/-- Every word of the line can be read, and the main parameter is there if the command has
one. -/
structure Readable (params : Text) : Prop where
  main : command.mainParam.isSome = true →
    ∃ word ∈ (QuotedWords.words commandQuotes params).head?,
      (unescape (withoutQuotes word)).isSome = true
  others : ∀ word ∈ otherWords command params, FineParam unescape command (splitAtEquals word)

/-- The part of the parser that does not wait for the terminal. -/
def parseLine (params : Text) : Parse Parsed :=
  takeMain unescape command params >>= fun main => parseRest unescape command main.1 main.2

theorem takeMain_of_none (hm : command.mainParam = none) (params : Text) :
    takeMain unescape command params = .ok (⟨∅, []⟩, params) := by
  rw [takeMain, hm]

variable {params : Text}

theorem takeMain_of_nil {paramMetadata : ParamMetadata}
    (hm : command.mainParam = some paramMetadata)
    (hnil : (firstWord commandQuotes params).1 = []) :
    takeMain unescape command params = .err (.noMain paramMetadata.name) := by
  rw [takeMain, hm]
  dsimp only
  rw [splitFirstWord_eq, ok_bind]
  exact if_pos hnil

theorem takeMain_of_ne_nil {paramMetadata : ParamMetadata}
    (hm : command.mainParam = some paramMetadata)
    (hne : (firstWord commandQuotes params).1 ≠ []) :
    takeMain unescape command params =
      (Outcome.ofOption (.invalidEscape paramMetadata.name)
        (unescape (withoutQuotes (firstWord commandQuotes params).1)) >>= fun u =>
          .ok (⟨AList.insert paramMetadata.name u ∅, []⟩,
            (firstWord commandQuotes params).2)) := by
  rw [takeMain, hm]
  dsimp only
  rw [splitFirstWord_eq, ok_bind]
  refine (if_neg hne).trans ?_
  rw [trimQuotes_eq, ok_bind]

/-- The parser accepts exactly the readable lines that repeat no name given with a value, and
enters what they give in order. -/
theorem parseLine_eq_ok_iff :
    parseLine unescape command params = .ok parsed ↔
      Readable unescape command params ∧ Once (given command params) ∧
        parsed = (given command params).foldl (enter unescape) ⟨∅, []⟩ := by
  rw [parseLine]
  cases hm : command.mainParam with
  | none =>
      have hgiven : given command params =
          (QuotedWords.words commandQuotes params).map splitAtEquals := by
        rw [given, hm]
      have hother : otherWords command params = QuotedWords.words commandQuotes params := by
        rw [otherWords, hm]
      rw [takeMain_of_none unescape command hm, ok_bind, parseRest_eq,
        foldlM_takeParam_eq_ok_iff, hgiven]
      refine and_congr_left fun _ => ⟨fun h => ⟨fun hsome => ?_, fun word hword => ?_⟩,
        fun h g hg => ?_⟩
      · rw [hm] at hsome
        cases hsome
      · rw [hother] at hword
        exact (h _ (mem_map_of_mem hword)).1
      · obtain ⟨word, hword, rfl⟩ := mem_map.mp hg
        exact ⟨h.others word (by rw [hother]; exact hword), notMem_empty _⟩
  | some paramMetadata =>
      by_cases hnil : (firstWord commandQuotes params).1 = []
      · rw [takeMain_of_nil unescape command hm hnil, err_bind]
        refine ⟨fun h => absurd h (err_ne_ok _ _), fun h => ?_⟩
        obtain ⟨word, hword, _⟩ := h.1.main (by rw [hm]; rfl)
        rw [words_of_nil _ hnil] at hword
        cases hword
      · have hwords := words_of_ne_nil commandQuotes hnil
        have hother : otherWords command params =
            QuotedWords.words commandQuotes
              (firstWord commandQuotes params).2 := by
          rw [otherWords, hm, hwords]
          rfl
        have hgiven : given command params =
            (paramMetadata.name, some (firstWord commandQuotes params).1) ::
              (otherWords command params).map splitAtEquals := by
          rw [given, hm, hwords, hother]
        rw [takeMain_of_ne_nil unescape command hm hnil]
        cases hu : unescape (withoutQuotes (firstWord commandQuotes params).1) with
        | none =>
            refine ⟨fun h => absurd h (err_ne_ok _ _), fun h => ?_⟩
            obtain ⟨word, hword, hsome⟩ := h.1.main (by rw [hm]; rfl)
            rw [hwords] at hword
            cases hword
            rw [hu] at hsome
            cases hsome
        | some u =>
            rw [ofOption_some, ok_bind, ok_bind]
            dsimp only
            rw [parseRest_eq, ← hother, foldlM_takeParam_eq_ok_iff, hgiven, foldl_cons,
              enter_value unescape hu, once_cons]
            constructor
            · rintro ⟨hall, honce, hres⟩
              refine ⟨⟨fun _ => ⟨_, by rw [hwords]; rfl, isSome_iff_exists.mpr ⟨u, hu⟩⟩,
                fun word hword => (hall _ (mem_map_of_mem hword)).1⟩,
                ⟨fun g hg heq => absurd ?_ (hall g hg).2, honce⟩, hres⟩
              exact (mem_insert _).mpr (.inl heq)
            · rintro ⟨hread, ⟨hfirst, honce⟩, hres⟩
              refine ⟨fun g hg => ⟨?_, fun hmem => ?_⟩, honce, hres⟩
              · obtain ⟨word, hword, rfl⟩ := mem_map.mp hg
                exact hread.others word hword
              · obtain heq | hmem := (mem_insert _).mp hmem
                · exact absurd (hfirst g hg heq) (some_ne_none _)
                · exact notMem_empty _ hmem

theorem parseLine_ne_panic (params : Text) : parseLine unescape command params ≠ .panic := by
  have hrest (parsed : Parsed) (tail : Text) :
      parseRest unescape command parsed tail ≠ .panic := by
    rw [parseRest_eq]
    exact foldlM_takeParam_ne_panic unescape command _ _
  refine bind_ne_panic ?_ fun main => hrest main.1 main.2
  cases hm : command.mainParam with
  | none =>
      rw [takeMain_of_none unescape command hm]
      exact ok_ne_panic _
  | some paramMetadata =>
      by_cases hnil : (firstWord commandQuotes params).1 = []
      · rw [takeMain_of_nil unescape command hm hnil]
        exact err_ne_panic _
      · rw [takeMain_of_ne_nil unescape command hm hnil]
        refine bind_ne_panic ?_ fun _ => ok_ne_panic _
        cases unescape (withoutQuotes _) with
        | none => exact err_ne_panic _
        | some u => exact ok_ne_panic _

/-! ## Deferred values -/

/-- A read that ends the wait for a value. -/
def givesValue : Read → Bool
  | .ok v => !v.isEmpty
  | .error _ => false

theorem readValue_spec (reads : List Read) :
    match readValue reads with
    | none => reads.countP givesValue = 0
    | some (_, rest) => reads.countP givesValue = rest.countP givesValue + 1 := by
  induction reads with
  | nil => rfl
  | cons read reads ih =>
      cases read with
      | error e =>
          rw [readValue, countP_cons_of_neg (by exact Bool.false_ne_true)]
          exact ih
      | ok v =>
          by_cases hv : v = []
          · rw [readValue, if_pos hv,
              countP_cons_of_neg (by rw [hv]; exact Bool.false_ne_true)]
            exact ih
          · rw [readValue, if_neg hv]
            refine countP_cons_of_pos ?_
            rw [givesValue, Bool.not_eq_true', isEmpty_eq_false_iff]
            exact hv

/-- The parser is done with the deferred parameters as soon as the terminal has given a value
for each of them. -/
theorem readDeferred_isSome_iff (names : List Text) (res : CommandParams) (reads : List Read) :
    (readDeferred names res reads).isSome = true ↔ names.length ≤ reads.countP givesValue := by
  induction names generalizing res reads with
  | nil => exact ⟨fun _ => Nat.zero_le _, fun _ => rfl⟩
  | cons name names ih =>
      have hspec := readValue_spec reads
      rw [readDeferred, length_cons]
      cases hread : readValue reads with
      | none =>
          rw [hread] at hspec
          dsimp only at hspec
          rw [hspec]
          exact ⟨(fun h => by cases h), fun h => absurd h (Nat.not_succ_le_zero _)⟩
      | some p =>
          rw [hread] at hspec
          dsimp only at hspec
          rw [hspec, Nat.add_le_add_iff_right]
          exact ih _ _

theorem deferredParams_length (gs : List (Text × Option Text)) (parsed : Parsed) :
    (gs.foldl (enter unescape) parsed).deferredParams.length =
      parsed.deferredParams.length + gs.countP (fun g => g.2.isNone) := by
  induction gs generalizing parsed with
  | nil => rfl
  | cons g gs ih =>
      obtain ⟨name, value⟩ := g
      rw [foldl_cons, ih, countP_cons]
      cases value with
      | none =>
          simp only [enter, length_append, length_singleton, isNone_none,
            if_true]
          omega
      | some v => simp [enter]

theorem parseParams_eq (params : Text) (reads : List Read) :
    parseParams unescape command params reads =
      match parseLine unescape command params with
      | .ok parsed => (readDeferred parsed.deferredParams parsed.res reads).map .ok
      | .err e => some (.err e)
      | .panic => some .panic := rfl

theorem parseParams_ne_panic (params : Text) (reads : List Read) :
    parseParams unescape command params reads ≠ some .panic := by
  rw [parseParams_eq]
  cases h : parseLine unescape command params with
  | ok parsed =>
      intro hp
      obtain ⟨res, _, hres⟩ := map_eq_some_iff.mp hp
      exact ok_ne_panic _ hres
  | err e => exact fun hp => err_ne_panic _ (Option.some.inj hp)
  | panic => exact absurd h (parseLine_ne_panic unescape command params)

theorem parseParams_err_iff (params : Text) (reads : List Read) :
    (∃ e, parseParams unescape command params reads = some (.err e)) ↔
      ¬ (Readable unescape command params ∧ Once (given command params)) := by
  rw [parseParams_eq]
  cases h : parseLine unescape command params with
  | ok parsed =>
      obtain ⟨hread, honce, _⟩ := (parseLine_eq_ok_iff unescape command).mp h
      refine ⟨?_, fun hno => absurd ⟨hread, honce⟩ hno⟩
      rintro ⟨e, he⟩
      obtain ⟨res, _, hres⟩ := map_eq_some_iff.mp he
      cases hres
  | err e =>
      refine ⟨fun _ hyes => ?_, fun _ => ⟨e, rfl⟩⟩
      have hok := (parseLine_eq_ok_iff unescape command).mpr ⟨hyes.1, hyes.2, rfl⟩
      rw [h] at hok
      exact err_ne_ok _ _ hok
  | panic => exact absurd h (parseLine_ne_panic unescape command params)

/-- The parser returns exactly when it rejects the line or the terminal has given a value for
every name without one. -/
theorem parseParams_isSome_iff (params : Text) (reads : List Read) :
    (parseParams unescape command params reads).isSome = true ↔
      ¬ (Readable unescape command params ∧ Once (given command params)) ∨
        (given command params).countP (fun g => g.2.isNone) ≤ reads.countP givesValue := by
  rw [parseParams_eq]
  cases h : parseLine unescape command params with
  | ok parsed =>
      obtain ⟨hread, honce, rfl⟩ := (parseLine_eq_ok_iff unescape command).mp h
      dsimp only
      rw [isSome_map, readDeferred_isSome_iff, deferredParams_length, length_nil,
        Nat.zero_add]
      exact ⟨.inr, fun hor => hor.resolve_left fun hno => hno ⟨hread, honce⟩⟩
  | err e =>
      refine ⟨fun _ => .inl fun hyes => ?_, fun _ => rfl⟩
      have hok := (parseLine_eq_ok_iff unescape command).mpr ⟨hyes.1, hyes.2, rfl⟩
      rw [h] at hok
      exact err_ne_ok _ _ hok
  | panic => exact absurd h (parseLine_ne_panic unescape command params)

/-! ## What an accepted line gives a parameter -/

variable {reads : List Read} {res : CommandParams}

theorem parseParams_eq_ok_iff :
    parseParams unescape command params reads = some (.ok res) ↔
      Readable unescape command params ∧ Once (given command params) ∧
        readDeferred ((given command params).foldl (enter unescape) ⟨∅, []⟩).deferredParams
          ((given command params).foldl (enter unescape) ⟨∅, []⟩).res reads = some res := by
  rw [parseParams_eq]
  cases h : parseLine unescape command params with
  | ok parsed =>
      obtain ⟨hread, honce, rfl⟩ := (parseLine_eq_ok_iff unescape command).mp h
      dsimp only
      rw [map_eq_some_iff]
      constructor
      · rintro ⟨res', hres, heq⟩
        cases heq
        exact ⟨hread, honce, hres⟩
      · exact fun hall => ⟨res, hall.2.2, rfl⟩
  | err e =>
      refine ⟨(fun he => by cases he), fun hyes => ?_⟩
      have hok := (parseLine_eq_ok_iff unescape command).mpr ⟨hyes.1, hyes.2.1, rfl⟩
      rw [h] at hok
      exact absurd hok (err_ne_ok _ _)
  | panic => exact absurd h (parseLine_ne_panic unescape command params)

variable {command}

theorem given_of_none (hm : command.mainParam = none) (params : Text) :
    given command params =
      (QuotedWords.words commandQuotes params).map splitAtEquals := by
  rw [given, hm]

theorem given_of_some (hm : command.mainParam = some p) {word : Text} {words : List Text}
    (hw : QuotedWords.words commandQuotes params = word :: words) :
    given command params = (p.name, some word) :: words.map splitAtEquals := by
  rw [given, hm, hw]

variable {unescape}

theorem Readable.isSome (h : Readable unescape command params) {v : Text}
    (hg : (name, some v) ∈ given command params) :
    (unescape (withoutQuotes v)).isSome = true := by
  have hother {word : Text} (hword : word ∈ otherWords command params)
      (hs : splitAtEquals word = (name, some v)) : (unescape (withoutQuotes v)).isSome = true := by
    obtain ⟨p, _, hfine⟩ := h.others word hword
    rw [hs] at hfine
    exact hfine
  cases hm : command.mainParam with
  | none =>
      rw [given_of_none hm] at hg
      obtain ⟨word, hword, hs⟩ := mem_map.mp hg
      exact hother (by rw [otherWords, hm]; exact hword) hs
  | some p =>
      obtain ⟨word, hword, hmain⟩ := h.main (by rw [hm]; rfl)
      obtain ⟨words, hw⟩ := head?_eq_some_iff.mp hword
      rw [given_of_some hm hw] at hg
      obtain hg | hg := mem_cons.mp hg
      · cases hg
        exact hmain
      · obtain ⟨word', hword', hs⟩ := mem_map.mp hg
        exact hother (by rw [otherWords, hm, hw]; exact hword') hs

theorem foldl_enter_of_ne {gs : List (Text × Option Text)} {name : Text}
    (hne : ∀ g ∈ gs, g.1 ≠ name) (parsed : Parsed) :
    (gs.foldl (enter unescape) parsed).res.lookup name = parsed.res.lookup name ∧
      (name ∈ (gs.foldl (enter unescape) parsed).deferredParams ↔
        name ∈ parsed.deferredParams) := by
  induction gs generalizing parsed with
  | nil => exact ⟨rfl, Iff.rfl⟩
  | cons g gs ih =>
      obtain ⟨n, value⟩ := g
      have hn : name ≠ n := fun h => hne _ mem_cons_self h.symm
      obtain ⟨hres, hdef⟩ := ih (fun g hg => hne g (mem_cons_of_mem _ hg))
        (enter unescape parsed (n, value))
      rw [foldl_cons, hres, hdef]
      cases value with
      | none => exact ⟨rfl, by simp [enter, hn]⟩
      | some v => exact ⟨lookup_insert_ne hn, Iff.rfl⟩

theorem readDeferred_lookup {names : List Text} (hne : name ∉ names) {res' : CommandParams}
    (h : readDeferred names res reads = some res') : res'.lookup name = res.lookup name := by
  induction names generalizing res reads with
  | nil =>
      cases h
      rfl
  | cons n names ih =>
      rw [readDeferred] at h
      obtain ⟨p, _, hrest⟩ := bind_eq_some_iff.mp h
      rw [ih (fun hmem => hne (mem_cons_of_mem _ hmem)) hrest]
      exact lookup_insert_ne fun heq => hne (heq ▸ mem_cons_self)

theorem isSome_of_parse_nil (h : parseParams unescape command params [] = some (.ok res)) :
    ∀ g ∈ given command params, g.2.isSome = true := by
  obtain ⟨hread, honce, hres⟩ := (parseParams_eq_ok_iff unescape command).mp h
  have hcount := (readDeferred_isSome_iff _ _ _).mp (isSome_iff_exists.mpr ⟨res, hres⟩)
  rw [deferredParams_length, length_nil, Nat.zero_add, countP_nil, Nat.le_zero,
    countP_eq_zero] at hcount
  intro g hg
  cases hv : g.2 with
  | none => exact absurd (by rw [hv]; rfl) (hcount g hg)
  | some v => rfl

/-- On a line that gives every parameter with a value, the values stand in the result as they
were unescaped. -/
theorem lookup_of_given (h : parseParams unescape command params reads = some (.ok res))
    (hall : ∀ g ∈ given command params, g.2.isSome = true) {v : Text}
    (hg : (name, some v) ∈ given command params) :
    ∃ u, unescape (withoutQuotes v) = some u ∧ res.lookup name = some u := by
  obtain ⟨hread, honce, hres⟩ := (parseParams_eq_ok_iff unescape command).mp h
  obtain ⟨u, hu⟩ := isSome_iff_exists.mp (hread.isSome hg)
  obtain ⟨before, after, hsplit⟩ := append_of_mem hg
  rw [hsplit] at honce hres hall
  have hbefore : ∀ g ∈ before, g.1 ≠ name := by
    intro g hmem heq
    have hnone := (pairwise_append.mp honce).2.2 g hmem _ mem_cons_self heq.symm
    have hsome := hall g (mem_append_left _ hmem)
    rw [hnone] at hsome
    cases hsome
  have hafter : ∀ g ∈ after, g.1 ≠ name := fun g hmem heq =>
    some_ne_none v ((once_cons.mp (pairwise_append.mp honce).2.1).1 g hmem heq)
  rw [foldl_append, foldl_cons] at hres
  obtain ⟨hbres, hbdef⟩ := @foldl_enter_of_ne unescape _ _ hbefore ⟨∅, []⟩
  generalize before.foldl (enter unescape) ⟨∅, []⟩ = parsed at hres hbres hbdef
  obtain ⟨hares, hadef⟩ := @foldl_enter_of_ne unescape _ _ hafter
    (enter unescape parsed (name, some v))
  have hdef : name ∉ (after.foldl (enter unescape)
      (enter unescape parsed (name, some v))).deferredParams := by
    rw [hadef, enter_value unescape hu, hbdef]
    exact not_mem_nil
  refine ⟨u, hu, ?_⟩
  rw [readDeferred_lookup hdef hres, hares, enter_value unescape hu]
  exact lookup_insert _

theorem name_of_word (hm : command.mainParam = some p)
    (h : parseParams unescape command params reads = some (.ok res)) {word : Text}
    {words : List Text} (hw : QuotedWords.words commandQuotes params = word :: words) :
    ∀ w ∈ words, IsPlainName (splitAtEquals w).1 ∧ (splitAtEquals w).1 ≠ p.name := by
  obtain ⟨hread, honce, _⟩ := (parseParams_eq_ok_iff unescape command).mp h
  intro w hmem
  have hother : otherWords command params = words := by
    rw [otherWords, hm, hw]
    rfl
  obtain ⟨p', hfind, _⟩ := hread.others w (hother ▸ hmem)
  refine ⟨find_name command hfind ▸ p'.plain, fun heq => ?_⟩
  rw [given_of_some hm hw, once_cons] at honce
  exact some_ne_none word (honce.1 _ (mem_map_of_mem hmem) heq)

end IndySdk.Cli
