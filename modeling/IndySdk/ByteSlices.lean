import Mathlib.Algebra.GroupWithZero.Nat
import IndySdk.Outcome
import Mathlib.Algebra.BigOperators.Group.List.Basic

/-!
# Slices of a text by byte offsets

The symbols of a text take one or more bytes each. A slice is given by byte offsets, and one that
falls inside a symbol or past the end aborts the thread. Offsets that an iteration over the text
reports are always boundaries.
-/

namespace ByteSlices

variable {α : Type*} {ε : Type*} (width : α → ℕ)

def byteLen (s : List α) : ℕ := (s.map width).sum

@[simp] theorem byteLen_nil : byteLen width ([] : List α) = 0 := rfl

@[simp] theorem byteLen_cons (c : α) (s : List α) :
    byteLen width (c :: s) = width c + byteLen width s := by
  rw [byteLen, List.map_cons, List.sum_cons]
  rfl

@[simp] theorem byteLen_append (s t : List α) :
    byteLen width (s ++ t) = byteLen width s + byteLen width t := by
  rw [byteLen, List.map_append, List.sum_append]
  rfl

/-- The text before an offset and the text from it on. -/
def splitAtByte : List α → ℕ → Outcome ε (List α × List α)
  | s, 0 => .ok ([], s)
  | [], _ + 1 => .panic
  | c :: s, pos + 1 =>
      if pos + 1 < width c then .panic
      else (fun p => (c :: p.1, p.2)) <$> splitAtByte s (pos + 1 - width c)

/-- The slice `s[..pos]`. -/
def sliceTo (s : List α) (pos : ℕ) : Outcome ε (List α) := Prod.fst <$> splitAtByte width s pos

/-- The slice `s[pos..]`. -/
def sliceFrom (s : List α) (pos : ℕ) : Outcome ε (List α) := Prod.snd <$> splitAtByte width s pos

/-- The slice `s[lo..hi]`. -/
def slice (s : List α) (lo hi : ℕ) : Outcome ε (List α) :=
  sliceTo width s hi >>= fun t => sliceFrom width t lo

/-- The symbols of a text with the offsets at which they start, the first at `pos`. -/
def charIndices : ℕ → List α → List (ℕ × α)
  | _, [] => []
  | pos, c :: s => (pos, c) :: charIndices (pos + width c) s

section

variable {width} (hw : ∀ c, 0 < width c)

include hw

theorem splitAtByte_append (s t : List α) :
    splitAtByte width (s ++ t) (byteLen width s) = (.ok (s, t) : Outcome ε _) := by
  induction s with
  | nil => cases t <;> rfl
  | cons c s ih =>
      have hc := hw c
      obtain ⟨pos, hpos⟩ : ∃ pos, byteLen width (c :: s) = pos + 1 :=
        Nat.exists_eq_succ_of_ne_zero (by rw [byteLen_cons]; omega)
      have hlen : pos + 1 = width c + byteLen width s := by rw [← hpos, byteLen_cons]
      rw [hpos, List.cons_append, splitAtByte, if_neg (by omega), hlen, Nat.add_sub_cancel_left,
        ih, Outcome.map_ok]

theorem sliceTo_append (s t : List α) :
    sliceTo width (s ++ t) (byteLen width s) = (.ok s : Outcome ε _) := by
  rw [sliceTo, splitAtByte_append hw, Outcome.map_ok]

theorem sliceFrom_append (s t : List α) :
    sliceFrom width (s ++ t) (byteLen width s) = (.ok t : Outcome ε _) := by
  rw [sliceFrom, splitAtByte_append hw, Outcome.map_ok]

theorem slice_append (s t u : List α) :
    slice width (s ++ t ++ u) (byteLen width s) (byteLen width (s ++ t)) =
      (.ok t : Outcome ε _) := by
  rw [slice, sliceTo_append hw, Outcome.ok_bind, sliceFrom_append hw]

end

end ByteSlices
