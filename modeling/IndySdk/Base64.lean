import Mathlib.Data.List.Nodup
import Mathlib.Tactic.Common

/-!
# Base64

Three octets are four digits of six bits. A last group of one or two octets is filled up with zero
bits, and with marks for the digits that it lacks. The digits are those of the URL-safe alphabet;
the standard alphabet writes the last two differently.
-/

open List

namespace Base64

def alphabet : List Char :=
  "ABCDEFGHIJKLMNOPQRSTUVWXYZabcdefghijklmnopqrstuvwxyz0123456789-_".toList

def padding : Char := '='

def symbol (d : ℕ) : Char := alphabet.getD d padding

def digit (c : Char) : Option ℕ := if c ∈ alphabet then some (alphabet.idxOf c) else none

/-- The digits of the octets, in groups of four. -/
def symbols : List UInt8 → List Char
  | [] => []
  | [a] => [symbol (a.toNat / 4), symbol (a.toNat % 4 * 16), padding, padding]
  | [a, b] => [symbol (a.toNat / 4), symbol (a.toNat % 4 * 16 + b.toNat / 16),
      symbol (b.toNat % 16 * 4), padding]
  | a :: b :: c :: rest => symbol (a.toNat / 4) :: symbol (a.toNat % 4 * 16 + b.toNat / 16) ::
      symbol (b.toNat % 16 * 4 + c.toNat / 64) :: symbol (c.toNat % 64) :: symbols rest

/-- The octet that ends in the second digit. -/
def first (x y : ℕ) : UInt8 := UInt8.ofNat (x * 4 + y / 16)

def second (y z : ℕ) : UInt8 := UInt8.ofNat (y % 16 * 16 + z / 4)

def third (z w : ℕ) : UInt8 := UInt8.ofNat (z % 4 * 64 + w)

def octets : List Char → Option (List UInt8)
  | [] => some []
  | x :: y :: z :: w :: rest => do
    let x ← digit x
    let y ← digit y
    if z = padding ∧ w = padding ∧ rest = [] then some [first x y]
    else
      let z ← digit z
      if w = padding ∧ rest = [] then some [first x y, second y z]
      else
        let w ← digit w
        let more ← octets rest
        some (first x y :: second y z :: third z w :: more)
  | _ => none

def encode (b : List UInt8) : String := String.ofList (symbols b)

def decode (s : String) : Option (List UInt8) := octets s.toList

theorem alphabet_eq : alphabet =
    ['A', 'B', 'C', 'D', 'E', 'F', 'G', 'H', 'I', 'J', 'K', 'L', 'M', 'N', 'O', 'P', 'Q', 'R', 'S',
      'T', 'U', 'V', 'W', 'X', 'Y', 'Z', 'a', 'b', 'c', 'd', 'e', 'f', 'g', 'h', 'i', 'j', 'k', 'l',
      'm', 'n', 'o', 'p', 'q', 'r', 's', 't', 'u', 'v', 'w', 'x', 'y', 'z', '0', '1', '2', '3', '4',
      '5', '6', '7', '8', '9', '-', '_'] :=
  String.toList_ofList

theorem alphabet_nodup : alphabet.Nodup := by
  refine Nodup.of_map Char.toNat ?_
  rw [alphabet_eq]
  decide

theorem symbol_eq_getElem {d : ℕ} (hd : d < 64) : ∃ h : d < alphabet.length,
    symbol d = alphabet[d] := by
  have hlength : d < alphabet.length := by
    rw [alphabet_eq]
    exact hd
  refine ⟨hlength, ?_⟩
  rw [symbol, getD_eq_getElem?_getD, getElem?_eq_getElem hlength, Option.getD_some]

theorem digit_symbol {d : ℕ} (hd : d < 64) : digit (symbol d) = some d := by
  obtain ⟨hlength, hsymbol⟩ := symbol_eq_getElem hd
  rw [digit, hsymbol, if_pos (getElem_mem hlength), alphabet_nodup.idxOf_getElem]

theorem symbol_ne_padding {d : ℕ} (hd : d < 64) : symbol d ≠ padding := by
  obtain ⟨hlength, hsymbol⟩ := symbol_eq_getElem hd
  have hpadding : padding ∉ alphabet := by
    rw [alphabet_eq]
    decide
  rw [hsymbol]
  exact fun h => hpadding (h ▸ getElem_mem hlength)

theorem first_eq (a : UInt8) {y : ℕ} (hy : y / 16 = a.toNat % 4) : first (a.toNat / 4) y = a := by
  rw [first, hy, Nat.div_add_mod', UInt8.ofNat_toNat]

theorem second_eq (b : UInt8) {y z : ℕ} (hy : y % 16 = b.toNat / 16) (hz : z / 4 = b.toNat % 16) :
    second y z = b := by
  rw [second, hy, hz, Nat.div_add_mod', UInt8.ofNat_toNat]

theorem third_eq (c : UInt8) {z : ℕ} (hz : z % 4 = c.toNat / 64) :
    third z (c.toNat % 64) = c := by
  rw [third, hz, Nat.div_add_mod', UInt8.ofNat_toNat]

theorem octets_symbols (b : List UInt8) : octets (symbols b) = some b := by
  induction b using symbols.induct with
  | case1 => rfl
  | case2 a =>
    have ha := a.toNat_lt
    rw [symbols, octets, digit_symbol (by omega), digit_symbol (by omega)]
    simp only [Option.bind_eq_bind, Option.bind_some, true_and, if_true]
    rw [first_eq a (by omega)]
  | case3 a b =>
    have ha := a.toNat_lt
    have hb := b.toNat_lt
    rw [symbols, octets, digit_symbol (by omega), digit_symbol (by omega)]
    simp only [Option.bind_eq_bind, Option.bind_some]
    rw [if_neg (fun h => symbol_ne_padding (by omega) h.1), digit_symbol (by omega)]
    simp only [Option.bind_some, true_and, if_true]
    rw [first_eq a (by omega), second_eq b (by omega) (by omega)]
  | case4 a b c rest ih =>
    have ha := a.toNat_lt
    have hb := b.toNat_lt
    have hc := c.toNat_lt
    rw [symbols, octets, digit_symbol (by omega), digit_symbol (by omega)]
    simp only [Option.bind_eq_bind, Option.bind_some]
    rw [if_neg (fun h => symbol_ne_padding (by omega) h.1), digit_symbol (by omega)]
    simp only [Option.bind_some]
    rw [if_neg (fun h => symbol_ne_padding (by omega) h.1), digit_symbol (by omega), ih]
    simp only [Option.bind_some]
    rw [first_eq a (by omega), second_eq b (by omega) (by omega), third_eq c (by omega)]

theorem decode_encode (b : List UInt8) : decode (encode b) = some b := by
  rw [decode, encode, String.toList_ofList, octets_symbols]

/-- The digits 62 and 63 of the standard alphabet. -/
def toStandard (c : Char) : Char := if c = '-' then '+' else if c = '_' then '/' else c

def ofStandard (c : Char) : Char :=
  if c = '+' then '-' else if c = '/' then '_' else if c = '-' ∨ c = '_' then '*' else c

def encodeStandard (b : List UInt8) : String := String.ofList ((symbols b).map toStandard)

def decodeStandard (s : String) : Option (List UInt8) := octets (s.toList.map ofStandard)

def symbolChars : List Char := alphabet ++ [padding]

theorem symbol_mem (d : ℕ) : symbol d ∈ symbolChars := by
  rw [symbol, symbolChars, getD_eq_getElem?_getD]
  cases hd : alphabet[d]? with
  | none => exact mem_append_right _ (mem_singleton_self _)
  | some c => exact mem_append_left _ (mem_of_getElem? hd)

theorem symbols_mem (b : List UInt8) : ∀ c ∈ symbols b, c ∈ symbolChars := by
  have hpad : padding ∈ symbolChars := mem_append_right _ (mem_singleton_self _)
  induction b using symbols.induct with
  | case1 =>
    intro c hc
    cases hc
  | case2 a =>
    simp only [symbols, forall_mem_cons]
    exact ⟨symbol_mem _, symbol_mem _, hpad, hpad, forall_mem_nil _⟩
  | case3 a b =>
    simp only [symbols, forall_mem_cons]
    exact ⟨symbol_mem _, symbol_mem _, symbol_mem _, hpad, forall_mem_nil _⟩
  | case4 a b c rest ih =>
    simp only [symbols, forall_mem_cons]
    exact ⟨symbol_mem _, symbol_mem _, symbol_mem _, symbol_mem _, ih⟩

theorem ofStandard_toStandard {c : Char} (hc : c ∈ symbolChars) :
    ofStandard (toStandard c) = c := by
  have hall : symbolChars.all (fun c => ofStandard (toStandard c) = c) = true := by
    rw [symbolChars, alphabet_eq]
    rfl
  exact of_decide_eq_true (all_eq_true.mp hall c hc)

theorem decodeStandard_encodeStandard (b : List UInt8) :
    decodeStandard (encodeStandard b) = some b := by
  have hsame : ((symbols b).map toStandard).map ofStandard = symbols b := by
    rw [map_map]
    exact (map_congr_left (fun c hc => ofStandard_toStandard (symbols_mem b c hc))).trans
      (map_id _)
  rw [decodeStandard, encodeStandard, String.toList_ofList, hsame, octets_symbols]

theorem encodeStandard_mem (b : List UInt8) :
    ∀ c ∈ (encodeStandard b).toList, c ∈ symbolChars.map toStandard := by
  rw [encodeStandard, String.toList_ofList]
  intro c hc
  obtain ⟨d, hd, rfl⟩ := mem_map.mp hc
  exact mem_map_of_mem (symbols_mem b d hd)

end Base64
