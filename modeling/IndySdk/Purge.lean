import IndySdk.Lockstep

/-!
# Runs without some of their inputs

A run is compared with the run that leaves out some of its inputs. Which ones are left out may
depend on the state that the run has reached. Inputs that do not change the state do not have to
be given.
-/

namespace Machine

variable {σ ι ο : Type*}

/-- The inputs that a condition on the state before them keeps. -/
def purge (M : Machine σ ι ο) (keeps : σ → ι → Bool) : σ → List ι → List ι
  | _, [] => []
  | s, i :: is =>
    if keeps s i then i :: M.purge keeps (M.step i s).2 is
    else M.purge keeps (M.step i s).2 is

theorem run_purge {M : Machine σ ι ο} {keeps : σ → ι → Bool} {s : σ} {is : List ι}
    (h : M.Along (fun s i => keeps s i = false → (M.step i s).2 = s) s is) :
    M.run (M.purge keeps s is) s = M.run is s := by
  induction is generalizing s with
  | nil => rfl
  | cons i is ih =>
    have hrest := ih h.2
    rw [purge]
    cases hkeeps : keeps s i with
    | true =>
      rw [if_pos rfl]
      exact hrest
    | false =>
      have hsame : (M.step i s).2 = s := h.1 hkeeps
      rw [if_neg Bool.false_ne_true, run]
      rw [hsame] at hrest ⊢
      exact hrest

end Machine
