import IndySdk.Bytes
import Mathlib.Data.Int.ModEq
import Mathlib.Data.Nat.Digits.Defs
import Mathlib.Tactic.Ring

/-!
# Numbers as bytes, the lowest first

A byte string is the number whose digits it lists, the lowest first. Numbers are written in a given
length and lose what does not fit; a byte string is incremented in place and wraps around.
-/

namespace LittleEndian

def value (b : Bytes) : ℕ := Nat.ofDigits 256 (b.map UInt8.toNat)

def encode : ℕ → ℕ → Bytes
  | 0, _ => []
  | length + 1, n => UInt8.ofNat (n % 256) :: encode length (n / 256)

def increment : Bytes → Bytes
  | [] => []
  | x :: b => if x = 255 then 0 :: increment b else (x + 1) :: b

@[simp] theorem length_encode (length n : ℕ) : (encode length n).length = length := by
  induction length generalizing n with
  | zero => rfl
  | succ length ih => rw [encode, List.length_cons, ih]

@[simp] theorem length_increment (b : Bytes) : (increment b).length = b.length := by
  induction b with
  | nil => rfl
  | cons x b ih =>
    rw [increment]
    split
    · rw [List.length_cons, List.length_cons, ih]
    · rfl

theorem value_cons (x : UInt8) (b : Bytes) : value (x :: b) = x.toNat + 256 * value b := by
  rw [value, List.map_cons, Nat.ofDigits_cons]
  rfl

theorem value_lt (b : Bytes) : value b < 256 ^ b.length := by
  have hdigits : ∀ d ∈ b.map UInt8.toNat, d < 256 := by
    intro d hd
    obtain ⟨x, _, rfl⟩ := List.mem_map.mp hd
    exact x.toNat_lt
  have h := Nat.ofDigits_lt_base_pow_length (by decide : 1 < 256) hdigits
  rwa [List.length_map] at h

theorem value_encode (length n : ℕ) : value (encode length n) = n % 256 ^ length := by
  induction length generalizing n with
  | zero => rw [encode, pow_zero, Nat.mod_one]; rfl
  | succ length ih =>
    have hbyte : (UInt8.ofNat (n % 256)).toNat = n % 256 := by
      rw [UInt8.toNat_ofNat']
      exact Nat.mod_eq_of_lt (Nat.mod_lt n (by decide))
    rw [encode, value_cons, ih, hbyte, pow_succ', Nat.mod_mul]

theorem value_injective {a b : Bytes} (hlength : a.length = b.length) (h : value a = value b) :
    a = b := by
  induction a generalizing b with
  | nil => exact (List.length_eq_zero_iff.mp hlength.symm).symm
  | cons x a ih =>
    cases b with
    | nil => cases hlength
    | cons y b =>
      rw [value_cons, value_cons] at h
      have hx := x.toNat_lt
      have hy := y.toNat_lt
      have hhead : x.toNat = y.toNat := by omega
      rw [UInt8.toNat_inj.mp hhead, ih (Nat.succ.inj hlength) (by omega)]

theorem encode_value (b : Bytes) : encode b.length (value b) = b := by
  apply value_injective (length_encode _ _)
  rw [value_encode]
  exact Nat.mod_eq_of_lt (value_lt b)

theorem encode_mod (length n : ℕ) : encode length (n % 256 ^ length) = encode length n := by
  apply value_injective (by rw [length_encode, length_encode])
  rw [value_encode, value_encode, Nat.mod_mod]

theorem value_increment (b : Bytes) : value (increment b) = (value b + 1) % 256 ^ b.length := by
  induction b with
  | nil => rfl
  | cons x b ih =>
    have hlt := value_lt b
    rw [List.length_cons, pow_succ', increment]
    split
    · rename_i hx
      rw [value_cons, value_cons, ih, hx]
      have hsum : UInt8.toNat 255 + 256 * value b + 1 = 256 * (value b + 1) := by
        have hmax : UInt8.toNat 255 = 255 := rfl
        omega
      rw [hsum, Nat.mul_mod_mul_left]
      exact zero_add _
    · rename_i hx
      have hbyte : x.toNat ≠ 255 := by
        intro he
        exact hx (UInt8.toNat_inj.mp he)
      have hnext : (x + 1).toNat = x.toNat + 1 := by
        have hbound := x.toNat_lt
        rw [UInt8.toNat_add]
        exact Nat.mod_eq_of_lt (by change x.toNat + 1 < 256; omega)
      have hfits : value (x :: b) + 1 < 256 * 256 ^ b.length := by
        rw [value_cons]
        have hbound := x.toNat_lt
        omega
      rw [Nat.mod_eq_of_lt hfits, value_cons, value_cons, hnext]
      ring

theorem value_iterate_increment (b : Bytes) (i : ℕ) :
    (increment^[i] b).length = b.length ∧
      value (increment^[i] b) = (value b + i) % 256 ^ b.length := by
  induction i with
  | zero => exact ⟨rfl, (Nat.mod_eq_of_lt (value_lt b)).symm⟩
  | succ i ih =>
    rw [Function.iterate_succ_apply', length_increment, value_increment, ih.1, ih.2]
    refine ⟨rfl, ?_⟩
    rw [Nat.mod_add_mod, add_assoc]

theorem iterate_increment_injective {b : Bytes} {i j : ℕ} (hi : i < 256 ^ b.length)
    (hj : j < 256 ^ b.length) (h : increment^[i] b = increment^[j] b) : i = j := by
  have hvalue := congrArg value h
  rw [(value_iterate_increment b i).2, (value_iterate_increment b j).2] at hvalue
  have hmod : i % 256 ^ b.length = j % 256 ^ b.length := Nat.ModEq.add_left_cancel' (value b) hvalue
  rwa [Nat.mod_eq_of_lt hi, Nat.mod_eq_of_lt hj] at hmod

end LittleEndian
