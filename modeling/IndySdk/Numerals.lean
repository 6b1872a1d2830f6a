import Mathlib.Algebra.Group.Int.Defs
import Mathlib.Algebra.Group.Nat.Defs
import Mathlib.Tactic.Common

/-!
# Decimal numerals

Parsing of a machine word accepts an optional sign and leading zeros, so one number has many
texts. Printing yields the numeral without leading zeros and without a plus sign.
-/

open Option

namespace Numerals

/-- The digits that follow an optional plus sign. -/
def unsignedDigits : List Char → List Char
  | '+' :: digits => digits
  | digits => digits

def parseUnsigned (width : ℕ) (s : String) : Option ℕ :=
  let digits := unsignedDigits s.toList
  if digits ≠ [] ∧ digits.all Char.isDigit ∧ Nat.ofDigitChars 10 digits 0 < 2 ^ width then
    some (Nat.ofDigitChars 10 digits 0)
  else none

theorem isDigit_of_mem_repr {n : ℕ} {c : Char} (h : c ∈ n.repr.toList) : c.isDigit := by
  rw [Nat.toList_repr] at h
  exact Nat.isDigit_of_mem_toDigits (by decide) (by decide) h

theorem ofDigitChars_repr (n : ℕ) : Nat.ofDigitChars 10 n.repr.toList 0 = n := by
  rw [Nat.toList_repr, Nat.ofDigitChars_toDigits (by decide) (by decide)]

theorem toList_repr_digits (n : ℕ) : n.repr.toList ≠ [] ∧ n.repr.toList.all Char.isDigit := by
  constructor
  · rw [Nat.toList_repr]
    exact Nat.toDigits_ne_nil
  · rw [List.all_eq_true]
    exact fun c hc => isDigit_of_mem_repr hc

theorem unsignedDigits_repr (n : ℕ) : unsignedDigits n.repr.toList = n.repr.toList := by
  have hdigit := @isDigit_of_mem_repr n
  cases hl : n.repr.toList with
  | nil => rfl
  | cons c cs =>
    have hc : c.isDigit := hdigit (by rw [hl]; exact List.mem_cons_self)
    have hplus : c ≠ '+' := by
      intro he
      rw [he] at hc
      exact absurd hc (by decide)
    unfold unsignedDigits
    split
    · rename_i he
      exact absurd (List.cons.inj he).1 hplus
    · rfl

theorem parseUnsigned_repr {width n : ℕ} (h : n < 2 ^ width) :
    parseUnsigned width n.repr = some n := by
  obtain ⟨hne, hall⟩ := toList_repr_digits n
  rw [parseUnsigned, unsignedDigits_repr, ofDigitChars_repr, if_pos ⟨hne, hall, h⟩]

variable {width : ℕ}

theorem lt_of_parseUnsigned {n : ℕ} {s : String} (h : parseUnsigned width s = some n) :
    n < 2 ^ width := by
  rw [parseUnsigned] at h
  obtain ⟨hs, hn⟩ := ite_none_right_eq_some.mp h
  rw [← Option.some.inj hn]
  exact hs.2.2

theorem repr_injective : Function.Injective Nat.repr := by
  intro m n h
  have hm := @parseUnsigned_repr (m + n + 1) m
  have hn := @parseUnsigned_repr (m + n + 1) n
  have hlt : m + n + 1 < 2 ^ (m + n + 1) := Nat.lt_two_pow_self
  rw [h, hn (by omega)] at hm
  exact (Option.some.inj (hm (by omega))).symm

/-- A signed word has an optional sign, and one more value below zero than above it. -/
def parseSigned (width : ℕ) (s : String) : Option ℤ :=
  match s.toList with
  | '-' :: digits =>
    if digits ≠ [] ∧ digits.all Char.isDigit ∧ Nat.ofDigitChars 10 digits 0 ≤ 2 ^ (width - 1) then
      some (-(Nat.ofDigitChars 10 digits 0 : ℤ))
    else none
  | _ => (parseUnsigned (width - 1) s).map Int.ofNat

theorem toList_repr_ne_minus (n : ℕ) (digits : List Char) : n.repr.toList ≠ '-' :: digits := by
  intro h
  have hc : ('-' : Char).isDigit :=
    @isDigit_of_mem_repr n '-' (by rw [h]; exact List.mem_cons_self)
  exact absurd hc (by decide)

theorem parseSigned_repr {n : ℕ} (h : n < 2 ^ (width - 1)) :
    parseSigned width n.repr = some (n : ℤ) := by
  unfold parseSigned
  split
  · rename_i digits he
    exact absurd he (toList_repr_ne_minus n digits)
  · rw [parseUnsigned_repr h]
    rfl

theorem parseSigned_neg_repr {n : ℕ} (h : n ≤ 2 ^ (width - 1)) :
    parseSigned width ("-" ++ n.repr) = some (-(n : ℤ)) := by
  have hlist : ("-" ++ n.repr).toList = '-' :: n.repr.toList := by
    rw [String.toList_append]
    rfl
  obtain ⟨hne, hall⟩ := toList_repr_digits n
  unfold parseSigned
  rw [hlist]
  simp only [ofDigitChars_repr]
  rw [if_pos ⟨hne, hall, h⟩]

theorem parseSigned_toString {width : ℕ} {n : ℤ} (hlow : -2 ^ (width - 1) ≤ n)
    (hhigh : n < 2 ^ (width - 1)) : parseSigned width (toString n) = some n := by
  cases n with
  | ofNat m =>
    have hm : m < 2 ^ (width - 1) := by
      rw [Int.ofNat_eq_natCast] at hhigh
      exact_mod_cast hhigh
    exact parseSigned_repr hm
  | negSucc m =>
    have hm : m + 1 ≤ 2 ^ (width - 1) := by
      rw [Int.negSucc_eq] at hlow
      have h : (m : ℤ) + 1 ≤ 2 ^ (width - 1) := by omega
      exact_mod_cast h
    exact parseSigned_neg_repr hm

theorem bounds_of_parseSigned {s : String} {n : ℤ} (h : parseSigned width s = some n) :
    -2 ^ (width - 1) ≤ n ∧ n < 2 ^ (width - 1) := by
  have hpos : (0 : ℤ) < 2 ^ (width - 1) := Int.pow_pos (by decide)
  unfold parseSigned at h
  split at h
  · rename_i digits _
    obtain ⟨hs, hn⟩ := ite_none_right_eq_some.mp h
    have hle : (Nat.ofDigitChars 10 digits 0 : ℤ) ≤ 2 ^ (width - 1) := by exact_mod_cast hs.2.2
    have hn := Option.some.inj hn
    omega
  · obtain ⟨m, hm, hn⟩ := map_eq_some_iff.mp h
    have hlt : (m : ℤ) < 2 ^ (width - 1) := by exact_mod_cast lt_of_parseUnsigned hm
    have hn : (m : ℤ) = n := hn
    omega

/-- The number that a numeral stands for, however large. -/
def parseInteger (s : String) : Option ℤ :=
  match s.toList with
  | '-' :: digits =>
    if digits ≠ [] ∧ digits.all Char.isDigit then some (-(Nat.ofDigitChars 10 digits 0 : ℤ))
    else none
  | chars =>
    let digits := unsignedDigits chars
    if digits ≠ [] ∧ digits.all Char.isDigit then some (Nat.ofDigitChars 10 digits 0 : ℤ)
    else none

theorem parseSigned_eq_some_iff {s : String} {n : ℤ} :
    parseSigned width s = some n ↔
      parseInteger s = some n ∧ -2 ^ (width - 1) ≤ n ∧ n < 2 ^ (width - 1) := by
  have hcast : ((2 ^ (width - 1) : ℕ) : ℤ) = 2 ^ (width - 1) := by push_cast; rfl
  have hpos : (0 : ℤ) < 2 ^ (width - 1) := Int.pow_pos (by decide)
  unfold parseSigned parseInteger
  split
  · rename_i digits _
    rw [ite_none_right_eq_some, ite_none_right_eq_some, some_inj]
    constructor
    · rintro ⟨⟨hne, hall, hle⟩, rfl⟩
      exact ⟨⟨⟨hne, hall⟩, rfl⟩, by omega, by omega⟩
    · rintro ⟨⟨⟨hne, hall⟩, rfl⟩, hlow, -⟩
      exact ⟨⟨hne, hall, by omega⟩, rfl⟩
  · rw [parseUnsigned, map_eq_some_iff]
    dsimp only
    rw [ite_none_right_eq_some, some_inj]
    constructor
    · rintro ⟨m, hm, rfl⟩
      obtain ⟨⟨hne, hall, hlt⟩, hm⟩ := ite_none_right_eq_some.mp hm
      obtain rfl := Option.some.inj hm
      exact ⟨⟨⟨hne, hall⟩, rfl⟩, by simp only [Int.ofNat_eq_natCast]; omega,
        by simp only [Int.ofNat_eq_natCast]; omega⟩
    · rintro ⟨⟨⟨hne, hall⟩, rfl⟩, -, hhigh⟩
      exact ⟨_, if_pos ⟨hne, hall, by omega⟩, rfl⟩

theorem not_mem_toString {c : Char} (hdigit : c.isDigit = false) (hminus : c ≠ '-') (n : ℤ) :
    c ∉ (toString n).toList := by
  have hdigits : ∀ m : ℕ, c ∉ m.repr.toList := by
    intro m hm
    have h := isDigit_of_mem_repr hm
    rw [hdigit] at h
    cases h
  cases n with
  | ofNat m => exact hdigits m
  | negSucc m =>
    have hlist : (toString (Int.negSucc m)).toList = '-' :: (m + 1).repr.toList := by
      change ("-" ++ (m + 1).repr).toList = _
      rw [String.toList_append]
      rfl
    rw [hlist, List.mem_cons, not_or]
    exact ⟨hminus, hdigits (m + 1)⟩

theorem toString_ne_empty (n : ℤ) : toString n ≠ "" := by
  cases n with
  | ofNat m =>
    intro hempty
    exact (toList_repr_digits m).1 (String.toList_eq_nil_iff.mpr hempty)
  | negSucc m =>
    change "-" ++ (m + 1).repr ≠ ""
    simp

theorem toString_injective {m n : ℤ} (h : toString m = toString n) : m = n := by
  have hlt : m.natAbs + n.natAbs < 2 ^ (m.natAbs + n.natAbs) := Nat.lt_two_pow_self
  have hbound : (m.natAbs : ℤ) + n.natAbs < 2 ^ (m.natAbs + n.natAbs) := by exact_mod_cast hlt
  have hm := @parseSigned_toString (m.natAbs + n.natAbs + 1) m
  have hn := @parseSigned_toString (m.natAbs + n.natAbs + 1) n
  rw [Nat.add_sub_cancel] at hm hn
  rw [h, hn (by omega) (by omega)] at hm
  exact (Option.some.inj (hm (by omega) (by omega))).symm

end Numerals
