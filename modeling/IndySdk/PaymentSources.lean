import IndySdk.AssocMap
import IndySdk.Delimited
import IndySdk.Numerals
import Mathlib.Algebra.BigOperators.Group.List.Basic
import Mathlib.Algebra.GroupWithZero.Nat

/-!
# Payment sources and their caches

A source is named after its payment address and the number of the transaction that made it, which is
put before the last part of the address. Two caches keep the sources of each address and the balance
of each source.
-/

namespace IndySdk.NullPay

open Numerals List

def parts (text : String) : List String := (text.toList.splitOn ':').map String.ofList

def toSource (paymentAddress : String) (seqNo : ℤ) : Option String :=
  match parts paymentAddress with
  | [scheme, method, id] => some (scheme ++ ":" ++ method ++ ":" ++ (toString seqNo ++ "_" ++ id))
  | _ => none

def fromSource (source : String) : Option (ℤ × String) :=
  match parts source with
  | [scheme, method, last] =>
    match (last.toList.splitOn '_').map String.ofList with
    | [seqNo, id] =>
      (parseSigned 32 seqNo).map (fun seqNo =>
        (seqNo, scheme ++ ":" ++ method ++ ":" ++ id))
    | _ => none
  | _ => none

/-- The sources by address, and the balances by source. -/
structure SourceCache where
  sources : AssocMap String (List String)
  balances : AssocMap String UInt64

def getBalanceOfSource (cache : SourceCache) (source : String) : Option UInt64 :=
  cache.balances.lookup source

def addSource (cache : SourceCache) (paymentAddress : String) (seqNo : ℤ) (balance : UInt64) :
    Option (String × SourceCache) :=
  (toSource paymentAddress seqNo).map fun source =>
    (source,
      { balances := cache.balances.insert source balance
        sources := cache.sources.insert paymentAddress
          ((cache.sources.lookup paymentAddress).getD [] ++ [source]) })

/-- An address whose last source is removed has no entry any more. -/
def removeSource (cache : SourceCache) (source : String) : SourceCache :=
  match fromSource source with
  | some (_, paymentAddress) =>
    let left := ((cache.sources.lookup paymentAddress).getD []).filter (fun v => v ≠ source)
    { balances := cache.balances.erase source
      sources :=
        if left ≠ [] then cache.sources.insert paymentAddress left
        else cache.sources.erase paymentAddress }
  | none => cache

/-! ### Names -/

variable {text paymentAddress source : String} {seqNo : ℤ}

theorem parts_eq_iff {pieces : List String} (hne : pieces ≠ [])
    (hcolon : ∀ piece ∈ pieces, ':' ∉ piece.toList) :
    parts text = pieces ↔ text.toList = [':'].intercalate (pieces.map String.toList) := by
  have hlists : parts text = pieces ↔ text.toList.splitOn ':' = pieces.map String.toList := by
    constructor
    · rintro rfl
      rw [parts, map_map]
      simp
    · intro h
      rw [parts, h, map_map]
      simp
  rw [hlists]
  constructor
  · intro h
    rw [← h, intercalate_splitOn]
  · intro h
    rw [h, splitOn_intercalate]
    · intro l hl
      obtain ⟨piece, hpiece, rfl⟩ := mem_map.mp hl
      exact hcolon piece hpiece
    · simpa using hne

theorem not_mem_of_mem_parts {piece : String} (h : piece ∈ parts text) :
    ':' ∉ piece.toList := by
  obtain ⟨l, hl, rfl⟩ := mem_map.mp h
  rw [String.toList_ofList]
  exact Delimited.not_mem_of_mem_splitOn hl

theorem toList_join (a b c : String) : (a ++ ":" ++ b ++ ":" ++ c).toList =
    [':'].intercalate ([a, b, c].map String.toList) := by
  simp [String.toList_append, List.intercalate]

theorem parts_join {a b c : String} (ha : ':' ∉ a.toList) (hb : ':' ∉ b.toList)
    (hc : ':' ∉ c.toList) : parts (a ++ ":" ++ b ++ ":" ++ c) = [a, b, c] := by
  rw [parts_eq_iff (cons_ne_nil _ _)]
  · exact toList_join a b c
  · intro piece hpiece
    simp only [mem_cons, not_mem_nil, or_false] at hpiece
    obtain rfl | rfl | rfl := hpiece
    · exact ha
    · exact hb
    · exact hc

theorem eq_join_of_parts {a b c : String} (h : parts text = [a, b, c]) :
    text = a ++ ":" ++ b ++ ":" ++ c ∧ ':' ∉ a.toList ∧ ':' ∉ b.toList ∧ ':' ∉ c.toList := by
  have hcolon : ∀ piece ∈ [a, b, c], ':' ∉ piece.toList := by
    intro piece hpiece
    rw [← h] at hpiece
    exact not_mem_of_mem_parts hpiece
  refine ⟨?_, hcolon a (by simp), hcolon b (by simp), hcolon c (by simp)⟩
  apply String.toList_inj.mp
  rw [toList_join]
  exact (parts_eq_iff (cons_ne_nil _ _) hcolon).mp h

theorem toSource_some (h : toSource paymentAddress seqNo = some source) :
    ∃ scheme method id, parts paymentAddress = [scheme, method, id] ∧
      paymentAddress = scheme ++ ":" ++ method ++ ":" ++ id ∧
      parts source = [scheme, method, toString seqNo ++ "_" ++ id] := by
  unfold toSource at h
  split at h
  · rename_i scheme method id hparts
    obtain ⟨haddress, hscheme, hmethod, hid⟩ := eq_join_of_parts hparts
    rw [← Option.some.inj h]
    refine ⟨scheme, method, id, hparts, haddress, parts_join hscheme hmethod ?_⟩
    rw [String.toList_append, String.toList_append, mem_append, mem_append,
      not_or, not_or]
    exact ⟨⟨not_mem_toString (by decide) (by decide) seqNo, by decide⟩, hid⟩
  · cases h

theorem toList_numbered (seqNo : ℤ) (id : String) :
    (toString seqNo ++ "_" ++ id).toList = (toString seqNo).toList ++ '_' :: id.toList := by
  simp [String.toList_append]

theorem toSource_injective {paymentAddress' : String} {seqNo' : ℤ}
    (h : toSource paymentAddress seqNo = some source)
    (h' : toSource paymentAddress' seqNo' = some source) :
    paymentAddress = paymentAddress' ∧ toString seqNo = toString seqNo' := by
  obtain ⟨scheme, method, id, _, rfl, hparts⟩ := toSource_some h
  obtain ⟨scheme', method', id', _, rfl, hparts'⟩ := toSource_some h'
  rw [hparts] at hparts'
  simp only [List.cons.injEq, and_true] at hparts'
  obtain ⟨rfl, rfl, hlast⟩ := hparts'
  have hlist := congrArg String.toList hlast
  rw [toList_numbered, toList_numbered] at hlist
  obtain ⟨hseq, hid⟩ := Delimited.eq_of_append_cons
    (not_mem_toString (by decide) (by decide) seqNo)
    (not_mem_toString (by decide) (by decide) seqNo') hlist
  rw [String.toList_inj.mp hid]
  exact ⟨rfl, String.toList_inj.mp hseq⟩

theorem fromSource_toSource {paymentAddress' : String} {seqNo' : ℤ}
    (h : toSource paymentAddress seqNo = some source)
    (h' : fromSource source = some (seqNo', paymentAddress')) :
    paymentAddress' = paymentAddress := by
  obtain ⟨scheme, method, id, _, rfl, hparts⟩ := toSource_some h
  unfold fromSource at h'
  rw [hparts] at h'
  dsimp only at h'
  rw [toList_numbered, splitOn_append_cons_self_of_not_mem
    (not_mem_toString (by decide) (by decide) seqNo)] at h'
  split at h'
  · rename_i text id' hpieces
    rw [map_cons, List.cons.injEq] at hpieces
    obtain ⟨n, _, hn⟩ := Option.map_eq_some_iff.mp h'
    have hlast : id.toList.splitOn '_' = [id'.toList] := by
      have hone := congrArg (List.map String.toList) hpieces.2
      rw [map_map] at hone
      simpa using hone
    have hid : id.toList = id'.toList := by
      have hjoin := @intercalate_splitOn Char id.toList _ _ '_'
      rw [hlast] at hjoin
      simpa [List.intercalate] using hjoin.symm
    rw [String.toList_inj.mp hid]
    exact (Prod.mk.inj hn).2.symm
  · cases h'

/-- The addresses whose sources are read back. -/
def Payable (paymentAddress : String) : Prop :=
  ∃ scheme method id, parts paymentAddress = [scheme, method, id] ∧ '_' ∉ id.toList

theorem payable_iff : Payable paymentAddress ↔
    (parts paymentAddress).length = 3 ∧ ∀ id ∈ (parts paymentAddress)[2]?, '_' ∉ id.toList := by
  rw [length_eq_three]
  constructor
  · rintro ⟨scheme, method, id, hparts, hid⟩
    refine ⟨⟨scheme, method, id, hparts⟩, ?_⟩
    simpa [hparts] using hid
  · rintro ⟨⟨scheme, method, id, hparts⟩, hid⟩
    refine ⟨scheme, method, id, hparts, hid id ?_⟩
    simp [hparts]

instance (paymentAddress : String) : Decidable (Payable paymentAddress) :=
  decidable_of_iff _ payable_iff.symm

theorem Payable.exists_source (h : Payable paymentAddress) (seqNo : ℤ) :
    ∃ source, toSource paymentAddress seqNo = some source := by
  obtain ⟨scheme, method, id, hparts, _⟩ := h
  exact ⟨scheme ++ ":" ++ method ++ ":" ++ (toString seqNo ++ "_" ++ id), by
    rw [toSource, hparts]⟩

theorem Payable.fromSource (h : Payable paymentAddress) (hlow : -2 ^ 31 ≤ seqNo)
    (hhigh : seqNo < 2 ^ 31) (hsource : toSource paymentAddress seqNo = some source) :
    NullPay.fromSource source = some (seqNo, paymentAddress) := by
  obtain ⟨scheme, method, id, hparts, hid⟩ := h
  obtain ⟨scheme', method', id', hparts', haddress, hmade⟩ := toSource_some hsource
  rw [hparts] at hparts'
  simp only [List.cons.injEq, and_true] at hparts'
  obtain ⟨rfl, rfl, rfl⟩ := hparts'
  unfold NullPay.fromSource
  rw [hmade]
  dsimp only
  rw [toList_numbered, splitOn_append_cons_self_of_not_mem
    (not_mem_toString (by decide) (by decide) seqNo), splitOn_eq_singleton hid]
  simp only [map_cons, map_nil, String.ofList_toList]
  rw [parseSigned_toString hlow hhigh, haddress]
  rfl

end IndySdk.NullPay
