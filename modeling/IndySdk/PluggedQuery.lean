import IndySdk.Base64
import IndySdk.JsonReader
import IndySdk.QueryEncryption

/-!
# Queries to a plugged storage

A query leaves the library as the text of its encrypted operator. Names and encrypted values are
printed in base64, plain values as they are. The Postgres plugin reads the text back into an
operator of the same variants, with a parser of its own that stops at the first name or value it
cannot decode.
-/

namespace IndySdk.Wallet.Language

def TagName.toString : TagName → String
  | .encryptedTagName name => "\"" ++ Base64.encodeStandard name ++ "\""
  | .plainTagName name => "\"~" ++ Base64.encodeStandard name ++ "\""

def TargetValue.toString : TargetValue → String
  | .unencrypted s => "\"" ++ s ++ "\""
  | .encrypted b => "\"" ++ Base64.encodeStandard b ++ "\""

/-- The text of a comparison of a printed name with a printed value. -/
def Comparison.format (c : Comparison) (name value : String) : String :=
  match c with
  | .eq => "\x7b" ++ name ++ ":" ++ value ++ "\x7d"
  | .neq => "\x7b" ++ name ++ ":\x7b\"$neq\":" ++ value ++ "\x7d\x7d"
  | .gt => "\x7b" ++ name ++ ":\x7b\"$gt\":" ++ value ++ "\x7d\x7d"
  | .gte => "\x7b" ++ name ++ ":\x7b\"$gte\":" ++ value ++ "\x7d\x7d"
  | .lt => "\x7b" ++ name ++ ":\x7b\"$lt\":" ++ value ++ "\x7d\x7d"
  | .lte => "\x7b" ++ name ++ ":\x7b\"$lte\":" ++ value ++ "\x7d\x7d"
  | .like => "\x7b" ++ name ++ ":\x7b\"$like\":" ++ value ++ "\x7d\x7d"

mutual

def Operator.toString : Operator → String
  | .compare c name value => c.format name.toString value.toString
  | .in name values =>
    "\x7b" ++ name.toString ++ ":\x7b\"$in\":[" ++
      ",".intercalate (values.map TargetValue.toString) ++ "]\x7d\x7d"
  | .and operators =>
    if operators.length > 0 then
      "\x7b\"$and\":[" ++ ",".intercalate (Operator.toStrings operators) ++ "]\x7d"
    else "\x7b\x7d"
  | .or operators =>
    if operators.length > 0 then
      "\x7b\"$or\":[" ++ ",".intercalate (Operator.toStrings operators) ++ "]\x7d"
    else "\x7b\x7d"
  | .not stmt => "\x7b\"$not\":" ++ stmt.toString ++ "\x7d"

def Operator.toStrings : List Operator → List String
  | [] => []
  | o :: operators => o.toString :: Operator.toStrings operators

end

/-- The operator that a storage is asked for by a query text. -/
def encryptedQuery (wc : WalletCrypto) (keys : Keys) (fromStr : String → Option Json)
    (query : String) : IndyResult Operator := do
  let parsedQuery ← parseFromJson fromStr query
  encryptQuery wc keys parsedQuery

end IndySdk.Wallet.Language

namespace IndySdk.Wallet.PluggedStorage

/-- A text that is handed over ends at its first null, so it may have none. -/
def cString (s : String) : IndyResult String :=
  if '\x00' ∈ s.toList then .err (errMsg .invalidState "Null symbols in payments strings")
  else .ok s

/-- The query text that a search hands to the plugin. -/
def searchQuery (query : Language.Operator) : IndyResult String := cString query.toString

end IndySdk.Wallet.PluggedStorage

namespace IndySdk.Wallet.Language.Postgres

inductive WalletQueryError where
  | parsingErr (s : String)
  | structureErr (s : String)
  | valueErr (s : String)
  deriving DecidableEq, Repr

variable (encrypted : Bool)

def buildTargetName (key : String) : Outcome WalletQueryError TagName :=
  if !encrypted then
    match TagName.ofText key with
    | .ok name => .ok name
    | _ => .panic
  else if isPlain key then
    TagName.plainTagName <$>
      Outcome.unwrap (Base64.decodeStandard (String.ofList (key.toList.drop 1)))
  else TagName.encryptedTagName <$> Outcome.unwrap (Base64.decodeStandard key)

def buildTargetValue (targetName : TagName) (value : String) :
    Outcome WalletQueryError TargetValue :=
  match encrypted, targetName with
  | true, .encryptedTagName _ =>
    TargetValue.encrypted <$> Outcome.unwrap (Base64.decodeStandard value)
  | _, _ => .ok (.unencrypted value)

/-- Only inequality is defined for tags whose values are encrypted. -/
def parseComparison (c : Comparison) (operatorName key : String) (value : Json) :
    Outcome WalletQueryError Operator :=
  match value with
  | .str s => do
    let targetName ← buildTargetName encrypted key
    match c, targetName with
    | .neq, _ => .compare c targetName <$> buildTargetValue encrypted targetName s
    | _, .plainTagName _ => .compare c targetName <$> buildTargetValue encrypted targetName s
    | _, .encryptedTagName _ =>
      .err (.structureErr (operatorName ++ " must be used only for nonencrypted tag"))
  | _ => .err (.valueErr (operatorName ++ " must be used with string"))

def buildTargetValues (targetName : TagName) :
    List Json → Outcome WalletQueryError (List TargetValue)
  | [] => pure []
  | .str s :: values => do
    let targetValue ← buildTargetValue encrypted targetName s
    let targetValues ← buildTargetValues targetName values
    pure (targetValue :: targetValues)
  | _ :: _ => .err (.valueErr "$in must be used with array of strings")

def parseSingleOperator (operatorName key : String) (value : Json) :
    Outcome WalletQueryError Operator :=
  match comparisonOf operatorName with
  | some c => parseComparison encrypted c operatorName key value
  | none =>
    if operatorName = "$in" then
      match value with
      | .arr values => do
        let targetName ← buildTargetName encrypted key
        .in targetName <$> buildTargetValues encrypted targetName values
      | _ => .err (.valueErr "$in must be used with array of strings")
    else .err (.valueErr ("Bad operator: " ++ operatorName))

def parseTagObject (key : String) : List (String × Json) → Outcome WalletQueryError Operator
  | [(operatorName, value)] => parseSingleOperator encrypted operatorName key value
  | _ => .err (.structureErr (key ++ " value must be JSON object of length 1"))

mutual

def parseMembers : List (String × Json) → Outcome WalletQueryError (List Operator)
  | [] => pure []
  | (key, value) :: members => do
    let suboperator ← parseOperator key value
    let operators ← parseMembers members
    pure (suboperator :: operators)

def parseOperator (key : String) : Json → Outcome WalletQueryError Operator
  | .arr values =>
    if key = "$and" then .and <$> parseObjects "$and" values
    else if key = "$or" then .or <$> parseObjects "$or" values
    else if key = "$not" then .err (.structureErr "$not must be JSON object")
    else .err (.structureErr ("Unsupported value for key: " ++ key))
  | .obj members =>
    if key = "$and" ∨ key = "$or" then
      .err (.structureErr (key ++ " must be array of JSON objects"))
    else if key = "$not" then (fun operators => .not (topOperator operators)) <$>
      parseMembers members
    else parseTagObject encrypted key members
  | value =>
    if key = "$and" ∨ key = "$or" then
      .err (.structureErr (key ++ " must be array of JSON objects"))
    else if key = "$not" then .err (.structureErr "$not must be JSON object")
    else
      match value with
      | .str s => do
        let targetName ← buildTargetName encrypted key
        .compare .eq targetName <$> buildTargetValue encrypted targetName s
      | _ => .err (.structureErr ("Unsupported value for key: " ++ key))

def parseObjects (operatorName : String) :
    List Json → Outcome WalletQueryError (List Operator)
  | [] => pure []
  | .obj members :: values => do
    let suboperators ← parseMembers members
    let operators ← parseObjects operatorName values
    pure (topOperator suboperators :: operators)
  | _ :: _ => .err (.structureErr (operatorName ++ " must be array of JSON objects"))

end

def parse (map : List (String × Json)) : Outcome WalletQueryError Operator :=
  topOperator <$> parseMembers encrypted map

def parseFromJsonIternal (fromStr : String → Option Json) (json : String) :
    Outcome WalletQueryError Operator := do
  let value ← Outcome.ofOption (.parsingErr "malformed json") (fromStr json)
  match value with
  | .obj map => parse encrypted map
  | _ => .err (.structureErr "Query must be JSON object")

/-- Read back the text of an encrypted query. -/
def parseFromJsonEncrypted (fromStr : String → Option Json) (json : String) :
    Outcome WalletQueryError Operator := parseFromJsonIternal true fromStr json

end IndySdk.Wallet.Language.Postgres
