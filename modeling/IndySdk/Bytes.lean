import Mathlib.Algebra.Group.Nat.Defs
import Mathlib.Tactic.Common

/-!
# Byte strings and their text

Byte strings are lists of octets. Text is encoded as UTF-8; decoding fails on byte strings that
are not the encoding of a text.
-/

abbrev Bytes := List UInt8

namespace Bytes

def ofText (s : String) : Bytes := s.toUTF8.data.toList

def toText (b : Bytes) : Option String := String.fromUTF8? ⟨b.toArray⟩

@[simp] theorem toText_ofText (s : String) : toText (ofText s) = some s := by
  have h : (⟨(ofText s).toArray⟩ : ByteArray) = s.toByteArray := rfl
  rw [toText, h, String.fromUTF8?, dif_pos s.isValidUTF8]
  rfl

theorem ofText_injective : Function.Injective ofText := by
  intro s t h
  have hs := toText_ofText s
  rw [h, toText_ofText] at hs
  exact (Option.some.inj hs).symm

/-- The lower case hexadecimal text of the bytes. -/
def toHex (b : Bytes) : String :=
  String.ofList (b.flatMap (fun x => [Nat.digitChar (x.toNat / 16), Nat.digitChar (x.toNat % 16)]))

def hexValue (c : Char) : ℕ := if c.isDigit then c.toNat - 48 else c.toNat - 87

def ofHexChars : List Char → Bytes
  | high :: low :: cs => UInt8.ofNat (16 * hexValue high + hexValue low) :: ofHexChars cs
  | _ => []

/-- The bytes of a lower case hexadecimal text. -/
def ofHex (s : String) : Bytes := ofHexChars s.toList

/-- The bytes of a number, the highest first, in a given length. -/
def ofNat : ℕ → ℕ → Bytes
  | 0, _ => []
  | length + 1, n => UInt8.ofNat (n / 256 ^ length) :: ofNat length n

theorem length_ofNat (length n : ℕ) : (ofNat length n).length = length := by
  induction length generalizing n with
  | zero => rfl
  | succ length ih => rw [ofNat, List.length_cons, ih]

theorem digitChar_injOn {m n : ℕ} (hm : m < 16) (hn : n < 16)
    (h : Nat.digitChar m = Nat.digitChar n) : m = n := by
  have hall : ∀ i j : Fin 16, Nat.digitChar i = Nat.digitChar j → i = j := by decide
  exact congrArg Fin.val (hall ⟨m, hm⟩ ⟨n, hn⟩ h)

theorem toHex_injective : Function.Injective toHex := by
  intro a b h
  rw [toHex, toHex, String.ofList_inj] at h
  induction a generalizing b with
  | nil =>
    cases b with
    | nil => rfl
    | cons y b => cases h
  | cons x a ih =>
    cases b with
    | nil => cases h
    | cons y b =>
      simp only [List.flatMap_cons, List.cons_append, List.nil_append, List.cons.injEq] at h
      obtain ⟨hhigh, hlow, htail⟩ := h
      have hx := x.toNat_lt
      have hy := y.toNat_lt
      have hdiv := digitChar_injOn (by omega) (by omega) hhigh
      have hmod := digitChar_injOn (by omega) (by omega) hlow
      have hxy : x = y := UInt8.toNat_inj.mp (by omega)
      rw [hxy, ih htail]

theorem ofText_append (s t : String) : ofText (s ++ t) = ofText s ++ ofText t := by
  simp [ofText, String.toByteArray_append]

end Bytes
