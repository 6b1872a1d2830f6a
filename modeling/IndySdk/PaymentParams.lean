import IndySdk.CommandLine
import IndySdk.Delimited
import IndySdk.GreedyPattern
import IndySdk.Json
import IndySdk.Numerals

/-!
# Payment parameters of the command line

The outputs of a payment are given as tuples in parentheses, which a regular expression picks out
of the value; each tuple is then cut at its commas. Fees are pairs with a colon in a list with
commas. What goes to the library is the JSON that is made of them; its texts are kept as the values
that they are written from.
-/

namespace IndySdk.Cli

/-- A command that fails has printed a text; the arguments are the parts that the text names. -/
structure Printed where
  msg : String
  args : List Text := []
  deriving DecidableEq

abbrev CliResult (α : Type) := Outcome Printed α

def getStrArrayParam (name : Text) (params : CommandParams) : CliResult (List Text) :=
  match params.lookup name with
  | none => .err ⟨"No required \"_\" parameter present", [name]⟩
  | some v =>
      if v.isEmpty then .err ⟨"No required \"_\" parameter present", [name]⟩
      else .ok (v.splitOn ',')

def getOptStrArrayParam (name : Text) (params : CommandParams) : CliResult (Option (List Text)) :=
  match params.lookup name with
  | some v => if v.isEmpty then .ok (some []) else .ok (some (v.splitOn ','))
  | none => .ok none

def isTupleChar (c : Char) : Bool := c != '(' && c != ')'

/-- A match of the regular expression `\(([^\(\)]+)\),?` at the beginning of a text: the group
and the length of the whole match. -/
def matchTuple : Text → Option (Text × ℕ)
  | '(' :: text =>
      match text.takeWhile isTupleChar, text.dropWhile isTupleChar with
      | c :: run, ')' :: ',' :: _ => some (c :: run, run.length + 4)
      | c :: run, ')' :: _ => some (c :: run, run.length + 3)
      | _, _ => none
  | _ => none

def extractArrayTuples (param : Text) : List Text := GreedyPattern.findAll matchTuple 0 param

def getStrTupleArrayParam (name : Text) (params : CommandParams) : CliResult (List Text) :=
  match params.lookup name with
  | some v =>
      if v.isEmpty then .err ⟨"No required \"_\" parameter present", [name]⟩
      else if (extractArrayTuples v).length = 0 then
        .err ⟨"Parameter \"_\" has invalid format", [name]⟩
      else .ok (extractArrayTuples v)
  | none => .err ⟨"No required \"_\" parameter present", [name]⟩

def getOptStrTupleArrayParam (name : Text) (params : CommandParams) :
    CliResult (Option (List Text)) :=
  match params.lookup name with
  | some v => if v.isEmpty then .ok (some []) else .ok (some (extractArrayTuples v))
  | none => .ok none

def parseU64 (amount : Text) : Option ℕ := Numerals.parseUnsigned 64 (String.ofList amount)

structure PaymentOutput where
  recipient : Text
  amount : ℕ
  deriving DecidableEq

def PaymentOutput.toJson (output : PaymentOutput) : Json :=
  .obj [("amount", .int output.amount), ("recipient", .str (String.ofList output.recipient))]

/-- The first two parts of a piece, the second as a number; the texts are for a part that is
missing and for one that is no number. -/
def parsePair (d : Char) (noName noAmount noNumber : String) (piece : Text) :
    CliResult (Text × ℕ) := do
  let parts := piece.splitOn d
  let name ← Outcome.ofOption ⟨noName, []⟩ parts[0]?
  let written ← Outcome.ofOption ⟨noAmount, []⟩ parts[1]?
  let amount ← Outcome.ofOption ⟨noNumber, []⟩ (parseU64 written)
  .ok (name, amount)

/-- One round of the loop over the outputs. -/
def parseOutput (output : Text) : CliResult PaymentOutput := do
  let (recipient, amount) ← parsePair ',' "Invalid format of Outputs: Payment Address not found"
    "Invalid format of Outputs: Amount not found"
    "Invalid format of Outputs: Amount must be integer and greater then 0" output
  .ok ⟨recipient, amount⟩

def parsePaymentInputs (inputs : List Text) : CliResult Json :=
  .ok (.arr (inputs.map (fun input => .str (String.ofList input))))

def parsePaymentOutputs (outputs : List Text) : CliResult Json :=
  if outputs.isEmpty then .err ⟨"Outputs list is empty", []⟩
  else do
    let outputObjects ← outputs.mapM parseOutput
    .ok (.arr (outputObjects.map PaymentOutput.toJson))

def parseMethodFromPaymentAddress (input : Text) : Option Text :=
  match input.splitOn ':' with
  | [_, method, _] => some method
  | _ => none

/-- What `add_request_fees` is called with; it is called when there are inputs. -/
def feesCall (feesInputs feesOutputs : Option (List Text)) : CliResult (Option (Json × Json)) :=
  match feesInputs with
  | none => .ok none
  | some inputs => do
    let inputsJson ← parsePaymentInputs inputs
    let outputsJson ← match feesOutputs with
      | some outputs => parsePaymentOutputs outputs
      | none => .ok (.arr [])
    .ok (some (inputsJson, outputsJson))

/-- The request with its fees, and the payment method. Indexing an empty list of inputs aborts. -/
def setRequestFees (addRequestFees : String → Json → Json → CliResult String)
    (request : String) (feesInputs feesOutputs : Option (List Text)) :
    CliResult (String × Option Text) := do
  match ← feesCall feesInputs feesOutputs with
  | none => .ok (request, none)
  | some (inputsJson, outputsJson) =>
    let request ← addRequestFees request inputsJson outputsJson
    let input ← Outcome.unwrap (feesInputs.getD [])[0]?
    .ok (request, parseMethodFromPaymentAddress input)

def parseFee (fee : Text) : CliResult (Text × ℕ) :=
  parsePair ':' "Invalid format of Fees: Type not found" "Invalid format of Fees: Amount not found"
    "Invalid format of Fees: Amount must greater or equal zero" fee

/-- The order in which a hash map is gone through: some order of its entries. -/
structure MapOrder where
  iterate : AssocMap Text ℕ → List (Text × ℕ)
  perm : ∀ m, (iterate m).Perm (m.entries.map (fun e => (e.1, e.2)))

def feesJson (fees : List (Text × ℕ)) : Json :=
  .obj (fees.map (fun fee => (String.ofList fee.1, .int fee.2)))

/-- One round of the loop over the fees. -/
def insertFee (feesMap : AssocMap Text ℕ) (fee : Text) : CliResult (AssocMap Text ℕ) := do
  let (type, amount) ← parseFee fee
  .ok (feesMap.insert type amount)

def parsePaymentFees (order : MapOrder) (fees : List Text) : CliResult Json := do
  let feesMap ← fees.foldlM insertFee ∅
  .ok (feesJson (order.iterate feesMap))

/-! ## What the commands send -/

/-- The outputs of a payment or of a mint transaction. -/
def sentOutputs (params : CommandParams) : CliResult Json :=
  getStrTupleArrayParam "outputs".toList params >>= parsePaymentOutputs

/-- The outputs that a request with fees is given, if it is given any fees. -/
def sentFeesOutputs (params : CommandParams) : CliResult (Option Json) := do
  let feesInputs ← getOptStrArrayParam "fees_inputs".toList params
  let feesOutputs ← getOptStrTupleArrayParam "fees_outputs".toList params
  let call ← feesCall feesInputs feesOutputs
  .ok (call.map Prod.snd)

def sentFees (order : MapOrder) (params : CommandParams) : CliResult Json :=
  getStrArrayParam "fees".toList params >>= parsePaymentFees order

example : extractArrayTuples ['(', 'a', ',', '1', ')', 'x', '(', 'b', ')', ','] =
    [['a', ',', '1'], ['b']] := by decide

end IndySdk.Cli
