import IndySdk.Wallet
import Mathlib.Logic.Function.Basic

/-!
# What a wallet is for

A wallet stands for a map from pairs of a type and a name to a value and a map of tags. The calls
of a wallet are restated here on such maps, without items, rows or encryption. A listing of a map
names each of its entries once, in any order.
-/

namespace IndySdk.Wallet

structure Entry where
  value : String
  tags : String → Option String

/-- The map from types and names to entries that a wallet stands for. -/
abbrev RecordMap := String × String → Option Entry

/-- A record as a caller sees it, with the parts it asked for. -/
structure Record where
  type : Option String
  id : String
  value : Option String
  tags : Option (String → Option String)

namespace RecordMap

def empty : RecordMap := fun _ => none

def fullRecord (type name : String) (e : Entry) : Record :=
  ⟨some type, name, some e.value, some e.tags⟩

/-- The list names every entry of the map once. -/
def Lists (l : List Record) (m : RecordMap) : Prop :=
  l.Nodup ∧ ∀ r, r ∈ l ↔ ∃ type name e, m (type, name) = some e ∧ r = fullRecord type name e

inductive Answer where
  | done
  | record (record : Record)
  | all (m : RecordMap)

abbrev Result := Except IndyErrorKind Answer

/-- Change an existing entry. -/
def change (m : RecordMap) (type name : String) (f : Entry → Entry) : Result × RecordMap :=
  match m (type, name) with
  | some e => (.ok .done, Function.update m (type, name) (some (f e)))
  | none => (.error .walletItemNotFound, m)

def overlay (new old : String → Option String) (n : String) : Option String :=
  (new n).or (old n)

variable (fromStr : RecordOptionsReader)

def lookupRecord (m : RecordMap) (type name options : String) : Result :=
  match readRecordOptions fromStr options with
  | .ok options =>
    match m (type, name) with
    | some e => .ok (.record {
        type := if options.retrieveType then some type else none
        id := name
        value := if options.retrieveValue then some e.value else none
        tags := if options.retrieveTags then some e.tags else none })
    | none => .error .walletItemNotFound
  | _ => .error .invalidStructure

def step (c : Call) (m : RecordMap) : Result × RecordMap :=
  match c.op with
  | .add type name value tags =>
    match m (type, name) with
    | some _ => (.error .walletItemAlreadyExists, m)
    | none => (.ok .done,
        Function.update m (type, name) (some ⟨value, fun n => tags.lookup n⟩))
  | .update type name newValue => m.change type name (fun e => { e with value := newValue })
  | .addTags type name tags =>
    m.change type name (fun e => { e with tags := overlay (fun n => tags.lookup n) e.tags })
  | .updateTags type name tags =>
    m.change type name (fun e => { e with tags := fun n => tags.lookup n })
  | .deleteTags type name tagNames =>
    m.change type name
      (fun e => { e with tags := fun n => if n ∈ tagNames then none else e.tags n })
  | .delete type name =>
    match m (type, name) with
    | some _ => (.ok .done, Function.update m (type, name) none)
    | none => (.error .walletItemNotFound, m)
  | .get type name options => (lookupRecord fromStr m type name options, m)
  | .getAll => (.ok (.all m), m)
  | .reopen => (.ok .done, m)

def machine : Machine RecordMap Call Result := ⟨step fromStr⟩

end RecordMap

def WalletRecord.view (r : WalletRecord) : Record :=
  ⟨r.type, r.id, r.value, r.tags.map (fun tags n => tags.lookup n)⟩

/-- A reply of a wallet says what the map answers. -/
def Agrees : IndyResult Reply → RecordMap.Result → Prop
  | .ok .done, .ok .done => True
  | .ok (.record r), .ok (.record r') => r.view = r'
  | .ok (.records l), .ok (.all m) => RecordMap.Lists (l.map WalletRecord.view) m
  | .err e, .error kind => e.kind = kind
  | _, _ => False

end IndySdk.Wallet
