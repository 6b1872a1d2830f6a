import Mathlib.Logic.Basic
import Mathlib.Tactic.Common

/-!
# Machines run side by side

A machine answers each input with an output and a next state. Two machines are fed the same
inputs; a requirement on one step, which may look at both states, is asked of every step of the
run. When an invariant makes the requirement equivalent to a condition on the first machine alone,
whole runs meet the requirement exactly when all their steps meet the condition.
-/

structure Machine (σ ι ο : Type*) where
  step : ι → σ → ο × σ

namespace Machine

variable {σ τ ι ο ο' : Type*}

/-- The state after a list of inputs. -/
def run (M : Machine σ ι ο) : List ι → σ → σ
  | [], s => s
  | i :: is, s => M.run is (M.step i s).2

/-- Every step of a run meets a condition on the state before it and the input. -/
def Along (M : Machine σ ι ο) (C : σ → ι → Prop) : σ → List ι → Prop
  | _, [] => True
  | s, i :: is => C s i ∧ M.Along C (M.step i s).2 is

instance instDecidableAlong (M : Machine σ ι ο) (C : σ → ι → Prop) [∀ s i, Decidable (C s i)] :
    (s : σ) → (is : List ι) → Decidable (M.Along C s is)
  | _, [] => inferInstanceAs (Decidable True)
  | s, i :: is =>
    have := instDecidableAlong M C (M.step i s).2 is
    inferInstanceAs (Decidable (C s i ∧ M.Along C (M.step i s).2 is))

/-- Every step of two machines fed the same inputs meets a requirement on both. -/
def Together (M : Machine σ ι ο) (S : Machine τ ι ο') (R : σ → τ → ι → Prop) :
    σ → τ → List ι → Prop
  | _, _, [] => True
  | s, t, i :: is => R s t i ∧ M.Together S R (M.step i s).2 (S.step i t).2 is

variable {M : Machine σ ι ο} {S : Machine τ ι ο'} {R : σ → τ → ι → Prop} {C : σ → ι → Prop}
  {Inv : σ → τ → Prop} {s : σ} {is : List ι}

theorem together_iff_along (hR : ∀ s t i, Inv s t → (R s t i ↔ C s i))
    (hInv : ∀ s t i, Inv s t → C s i → Inv (M.step i s).2 (S.step i t).2) {t : τ} (is : List ι)
    (h : Inv s t) : M.Together S R s t is ↔ M.Along C s is := by
  induction is generalizing s t with
  | nil => rfl
  | cons i is ih =>
    rw [Together, Along, hR s t i h]
    exact and_congr_right (fun hc => ih (hInv s t i h hc))

/-- Steps that meet a condition keep an invariant of both machines, and the invariant makes them
meet a requirement. -/
theorem together_of_along
    (h : ∀ s t i, Inv s t → C s i → R s t i ∧ Inv (M.step i s).2 (S.step i t).2) {t : τ}
    (hs : Inv s t) (hC : M.Along C s is) : M.Together S R s t is := by
  induction is generalizing s t with
  | nil => trivial
  | cons i is ih =>
    obtain ⟨hR, hnext⟩ := h s t i hs hC.1
    exact ⟨hR, ih hnext hC.2⟩

theorem together_of_inv (h : ∀ s t i, Inv s t → R s t i ∧ Inv (M.step i s).2 (S.step i t).2) {t : τ}
    (is : List ι) (hs : Inv s t) : M.Together S R s t is := by
  induction is generalizing s t with
  | nil => trivial
  | cons i is ih =>
    obtain ⟨hR, hnext⟩ := h s t i hs
    exact ⟨hR, ih hnext⟩

/-- Requirements on the steps of one machine, compared under an invariant of its states that the
steps which meet the condition keep. -/
theorem along_iff_of_kept {Req : σ → ι → Prop} {Inv : σ → Prop}
    (hReq : ∀ s i, Inv s → (Req s i ↔ C s i)) (hInv : ∀ s i, Inv s → C s i → Inv (M.step i s).2)
    (is : List ι) (h : Inv s) : M.Along Req s is ↔ M.Along C s is := by
  induction is generalizing s with
  | nil => rfl
  | cons i is ih =>
    rw [Along, Along, hReq s i h]
    exact and_congr_right (fun hc => ih (hInv s i h hc))

theorem along_iff_along {Req : σ → ι → Prop} {Inv : σ → Prop}
    (hReq : ∀ s i, Inv s → (Req s i ↔ C s i)) (hInv : ∀ s i, Inv s → Inv (M.step i s).2) {s : σ}
    (is : List ι) (h : Inv s) : M.Along Req s is ↔ M.Along C s is :=
  along_iff_of_kept hReq (fun s i hs _ => hInv s i hs) is h

theorem along_mono {Req : σ → ι → Prop} (h : ∀ s i, C s i → Req s i) (hC : M.Along C s is) :
    M.Along Req s is := by
  induction is generalizing s with
  | nil => trivial
  | cons i is ih => exact ⟨h s i hC.1, ih hC.2⟩

/-- Steps that meet a condition keep an invariant, and the invariant makes them meet a
requirement. -/
theorem along_of_along {Req : σ → ι → Prop} {Inv : σ → Prop}
    (h : ∀ s i, Inv s → C s i → Req s i ∧ Inv (M.step i s).2) {s : σ} {is : List ι} (hs : Inv s)
    (hC : M.Along C s is) : M.Along Req s is := by
  induction is generalizing s with
  | nil => trivial
  | cons i is ih =>
    obtain ⟨hReq, hnext⟩ := h s i hs hC.1
    exact ⟨hReq, ih hnext hC.2⟩

theorem inv_run {Inv : σ → Prop} (hInv : ∀ s i, Inv s → C s i → Inv (M.step i s).2) {s : σ}
    {is : List ι} (h : Inv s) (hC : M.Along C s is) : Inv (M.run is s) := by
  induction is generalizing s with
  | nil => exact h
  | cons i is ih => exact ih (hInv s i h hC.1) hC.2

theorem run_append (is js : List ι) (s : σ) :
    M.run (is ++ js) s = M.run js (M.run is s) := by
  induction is generalizing s with
  | nil => rfl
  | cons i is ih => exact ih (M.step i s).2

theorem along_append {js : List ι} :
    M.Along C s (is ++ js) ↔ M.Along C s is ∧ M.Along C (M.run is s) js := by
  induction is generalizing s with
  | nil => exact (iff_of_eq (true_and _)).symm
  | cons i is ih =>
    rw [List.cons_append, Along, Along, ih, and_assoc]
    rfl

theorem along_and {C' : σ → ι → Prop} {s : σ} {is : List ι} (h : M.Along C s is)
    (h' : M.Along C' s is) : M.Along (fun s i => C s i ∧ C' s i) s is := by
  induction is generalizing s with
  | nil => trivial
  | cons i is ih => exact ⟨⟨h.1, h'.1⟩, ih h.2 h'.2⟩

theorem countP_le_of_along {μ : σ → ℕ} {p : ι → Bool}
    (h : ∀ s i, C s i → μ (M.step i s).2 + (if p i then 1 else 0) ≤ μ s) {s : σ} {is : List ι}
    (hC : M.Along C s is) : is.countP p + μ (M.run is s) ≤ μ s := by
  induction is generalizing s with
  | nil => exact Nat.le_of_eq (Nat.zero_add _)
  | cons i is ih =>
    have hstep := h s i hC.1
    have hrest := ih hC.2
    rw [List.countP_cons, run]
    omega

theorem along_of_end {P : σ → Prop} (hback : ∀ s i, P (M.step i s).2 → P s) {s : σ} {is : List ι}
    (hend : P (M.run is s)) : P s ∧ M.Along (fun s i => P (M.step i s).2) s is := by
  induction is generalizing s with
  | nil => exact ⟨hend, trivial⟩
  | cons i is ih =>
    obtain ⟨hnext, hrest⟩ := ih hend
    exact ⟨hback s i hnext, hnext, hrest⟩

end Machine
