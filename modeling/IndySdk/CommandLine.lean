import IndySdk.AssocMap
import IndySdk.ByteSlices
import IndySdk.QuotedWords

/-!
# Reading the parameters of a command line

What follows the name of a command is cut into words, each a parameter with its value in quotes
or not. A command may have one main parameter, which comes first and is not named. The others are
`name=value`; a deferred one may also be a bare name, and its value is then asked for on the
terminal.

The functions work on byte offsets, as the program does, so that a slice off a symbol boundary
aborts. Unescaping is a library's; it is a parameter of the functions that call it.
-/

namespace IndySdk.Cli

open QuotedWords

abbrev Text := List Char

def byteWidth (c : Char) : ℕ := c.utf8Size

/-- The symbols with the White_Space property. -/
def isWhitespace (c : Char) : Bool :=
  let n := c.toNat
  (9 ≤ n && n ≤ 13) || n == 32 || n == 0x85 || n == 0xA0 || n == 0x1680
    || (0x2000 ≤ n && n ≤ 0x200A) || n == 0x2028 || n == 0x2029 || n == 0x202F || n == 0x205F
    || n == 0x3000

/-- The names that the metadata of the commands use: they are not empty and hold no white space,
equals sign, quote or backslash. -/
def IsPlainName (name : Text) : Prop :=
  name ≠ [] ∧ ∀ c ∈ name, isWhitespace c = false ∧ c ≠ '=' ∧ c ≠ '"' ∧ c ≠ '\\'

instance (name : Text) : Decidable (IsPlainName name) :=
  @instDecidableAnd _ _ inferInstance (List.decidableBAll _ name)

structure ParamMetadata where
  name : Text
  isDeferred : Bool
  plain : IsPlainName name

structure CommandMetadata where
  mainParam : Option ParamMetadata
  params : List ParamMetadata

abbrev CommandParams := AssocMap Text Text

inductive ParseError where
  | noMain (name : Text)
  | invalidEscape (name : Text)
  | presentedTwice (name : Text)
  | unknown (name : Text)
  | noValue (name : Text)
  deriving DecidableEq, Repr

def ParseError.message : ParseError → Text
  | .noMain name => "No main \"".toList ++ name ++ "\" parameter present".toList
  | .invalidEscape name =>
      "Invalid escape sequence for \"".toList ++ name ++ "\" parameter present".toList
  | .presentedTwice name => '"' :: name ++ "\" parameter presented multiple times".toList
  | .unknown name => "Unknown \"".toList ++ name ++ "\" parameter present".toList
  | .noValue name => "No value for \"".toList ++ name ++ "\" parameter present".toList

abbrev Parse := Outcome ParseError

def trimLeft (s : Text) : Text := s.dropWhile isWhitespace

def trim (s : Text) : Text := ((trimLeft s).reverse.dropWhile isWhitespace).reverse

/-- The offset of the first white space that no quote escapes. -/
def wordEnd (isQuoteEscape isWhitespaceEscape : Bool) : List (ℕ × Char) → Option ℕ
  | [] => none
  | (pos, ch) :: rest =>
      if isWhitespace ch && !isWhitespaceEscape then some pos
      else
        wordEnd (ch == '\\')
          (if !isQuoteEscape && ch == '"' then !isWhitespaceEscape else isWhitespaceEscape) rest

def splitFirstWord (s : Text) : Parse (Text × Text) :=
  let s := trim s
  match wordEnd false false (ByteSlices.charIndices byteWidth 0 s) with
  | some pos => do
      let word ← ByteSlices.sliceTo byteWidth s pos
      let tail ← ByteSlices.sliceFrom byteWidth s pos
      .ok (word, trimLeft tail)
  | none => .ok (s, [])

def trimQuotes (s : Text) : Parse Text :=
  if 1 < ByteSlices.byteLen byteWidth s ∧ s.head? = some '"' ∧ s.getLast? = some '"' then
    ByteSlices.slice byteWidth s 1 (ByteSlices.byteLen byteWidth s - 1)
  else .ok s

/-- `splitn(2, '=')`: the text before the first equals sign and, if there is one, the text
after it. -/
def splitAtEquals : Text → Text × Option Text
  | [] => ([], none)
  | c :: s =>
      if c = '=' then ([], some s)
      else (c :: (splitAtEquals s).1, (splitAtEquals s).2)

/-! ## The first word, by symbols -/

/-- Quotes and backslashes, between words that white space separates. -/
def commandQuotes : QuoteSyntax Char where
  quote := '"'
  escape := '\\'
  isSpace := isWhitespace
  quote_not_space := by decide
  escape_not_space := by decide

theorem byteWidth_pos (c : Char) : 0 < byteWidth c := c.utf8Size_pos

theorem wordEnd_eq (m : QuoteFlags) (s : Text) (pos : ℕ) :
    wordEnd m.isQuoteEscape m.isWhitespaceEscape (ByteSlices.charIndices byteWidth pos s) =
      if (takeWord commandQuotes m s).2 = [] then none
      else some (pos + ByteSlices.byteLen byteWidth
        (takeWord commandQuotes m s).1) := by
  induction s generalizing m pos with
  | nil => rfl
  | cons c s ih =>
      rw [ByteSlices.charIndices, wordEnd]
      by_cases hend : isWhitespace c = true ∧ m.isWhitespaceEscape = false
      · have htake : takeWord commandQuotes m (c :: s) = ([], c :: s) := if_pos hend
        rw [htake, if_pos (by rw [hend.1, hend.2]; rfl), if_neg (List.cons_ne_nil _ _),
          ByteSlices.byteLen_nil, Nat.add_zero]
      · have hgo : ¬ (isWhitespace c && !m.isWhitespaceEscape) = true := by
          rw [Bool.and_eq_true, Bool.not_eq_true']
          exact hend
        have htake : takeWord commandQuotes m (c :: s) =
            (c :: (takeWord commandQuotes (next commandQuotes m c) s).1,
              (takeWord commandQuotes (next commandQuotes m c) s).2) :=
          if_neg hend
        have hquoted : (if (!m.isQuoteEscape && c == '"') = true then !m.isWhitespaceEscape
              else m.isWhitespaceEscape) =
            (next commandQuotes m c).isWhitespaceEscape :=
          if_congr (by rw [Bool.and_eq_true, Bool.not_eq_true', beq_iff_eq]; rfl) rfl rfl
        have hescape : (c == '\\') = (next commandQuotes m c).isQuoteEscape := rfl
        rw [if_neg hgo, hquoted, hescape, ih, htake]
        dsimp only
        rw [ByteSlices.byteLen_cons, Nat.add_assoc]

theorem splitFirstWord_eq (s : Text) :
    splitFirstWord s = .ok (firstWord commandQuotes s) := by
  have htrim : trim s = QuotedWords.trim commandQuotes s := rfl
  have happ := takeWord_append commandQuotes start (trim s)
  have hend := wordEnd_eq start (trim s) 0
  have hto := ByteSlices.sliceTo_append (ε := ParseError) byteWidth_pos
    (takeWord commandQuotes start (trim s)).1
    (takeWord commandQuotes start (trim s)).2
  have hfrom := ByteSlices.sliceFrom_append (ε := ParseError) byteWidth_pos
    (takeWord commandQuotes start (trim s)).1
    (takeWord commandQuotes start (trim s)).2
  rw [happ] at hto hfrom
  rw [splitFirstWord, firstWord, ← htrim]
  by_cases hp : (takeWord commandQuotes start (trim s)).2 = []
  · rw [hp, List.append_nil] at happ
    rw [if_pos hp] at hend
    rw [hp, happ]
    exact hend ▸ rfl
  · rw [if_neg hp, Nat.zero_add] at hend
    dsimp only [start] at hend hto hfrom ⊢
    rw [hend]
    dsimp only
    rw [hto, hfrom]
    rfl

theorem splitFirstWord_length_lt {s word tail : Text} (h : splitFirstWord s = .ok (word, tail))
    (hne : word ≠ []) : tail.length < s.length := by
  rw [splitFirstWord_eq, Outcome.ok.injEq] at h
  have hlt := firstWord_length_lt commandQuotes (s := s) (by rw [h]; exact hne)
  rw [h] at hlt
  exact hlt

/-! ## The loops -/

structure Parsed where
  res : CommandParams
  deferredParams : List Text

variable (unescape : Text → Option Text)

/-- The main parameter of a line, and what follows it. -/
def takeMain (command : CommandMetadata) (params : Text) : Parse (Parsed × Text) :=
  match command.mainParam with
  | none => .ok (⟨∅, []⟩, params)
  | some paramMetadata => do
      let (paramValue, tail) ← splitFirstWord params
      if paramValue = [] then .err (.noMain paramMetadata.name)
      else
        let paramValue ← trimQuotes paramValue
        let paramValue ← Outcome.ofOption (.invalidEscape paramMetadata.name)
          (unescape paramValue)
        .ok (⟨AList.insert paramMetadata.name paramValue ∅, []⟩, tail)

/-- One round of the loop over the other parameters. -/
def takeParam (command : CommandMetadata) (parsed : Parsed) (param : Text) : Parse Parsed :=
  let paramName := (splitAtEquals param).1
  if paramName ∈ parsed.res then .err (.presentedTwice paramName)
  else
    match command.params.find? (fun p => p.name == paramName) with
    | none => .err (.unknown paramName)
    | some paramMetadata =>
        match (splitAtEquals param).2 with
        | some paramValue => do
            let paramValue ← trimQuotes paramValue
            let paramValue ← Outcome.ofOption (.invalidEscape paramName) (unescape paramValue)
            .ok { parsed with res := parsed.res.insert paramMetadata.name paramValue }
        | none =>
            if paramMetadata.isDeferred then
              .ok { parsed with deferredParams := parsed.deferredParams ++ [paramMetadata.name] }
            else .err (.noValue paramName)

/-- The loop over the other parameters. -/
def parseRest (command : CommandMetadata) (parsed : Parsed) (params : Text) : Parse Parsed :=
  match _h : splitFirstWord params with
  | .ok (param, tail) =>
      if _hne : param = [] then .ok parsed
      else
        match takeParam unescape command parsed param with
        | .ok parsed => parseRest command parsed tail
        | .err e => .err e
        | .panic => .panic
  | .err e => .err e
  | .panic => .panic
termination_by params.length
decreasing_by exact splitFirstWord_length_lt _h _hne

/-- What the terminal gives to one read of a password, a line or an error. -/
abbrev Read := Except Text Text

/-- The loop that asks for one value until it is given one that is not empty; `none` while it
still waits for the terminal. -/
def readValue : List Read → Option (Text × List Read)
  | [] => none
  | .error _ :: reads => readValue reads
  | .ok v :: reads => if v = [] then readValue reads else some (v, reads)

def readDeferred : List Text → CommandParams → List Read → Option CommandParams
  | [], res, _ => some res
  | param :: deferredParams, res, reads => do
      let (val, reads) ← readValue reads
      readDeferred deferredParams (res.insert param val) reads

/-- The parameters of a line, when the terminal has given the reads listed; `none` while a
deferred value is still asked for. -/
def parseParams (command : CommandMetadata) (params : Text) (reads : List Read) :
    Option (Parse CommandParams) :=
  match takeMain unescape command params >>= fun main =>
      parseRest unescape command main.1 main.2 with
  | .ok parsed => (readDeferred parsed.deferredParams parsed.res reads).map .ok
  | .err e => some (.err e)
  | .panic => some .panic

/-- What becomes of the line of a command. -/
inductive Execution where
  | help
  | execute (params : CommandParams)
  | reject (message : Text)

def Execution.ofParse : Parse CommandParams → Parse Execution
  | .ok params => .ok (.execute params)
  | .err e => .ok (.reject e.message)
  | .panic => .panic

def executeCommand (command : CommandMetadata) (params : Text) (reads : List Read) :
    Option (Parse Execution) :=
  match splitFirstWord params with
  | .ok (firstWord, _) =>
      if firstWord = "help".toList then some (.ok .help)
      else (parseParams unescape command params reads).map Execution.ofParse
  | .err e => some (.err e)
  | .panic => some .panic

end IndySdk.Cli
