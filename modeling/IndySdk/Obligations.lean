import IndySdk.Lockstep
import Mathlib.Algebra.BigOperators.Group.Multiset.Basic

/-!
# Obligations of a machine

An input may bring obligations, an output settles some, and a state still owes the rest. When every
step of a run loses none and invents none, neither does the run.
-/

namespace Machine

variable {σ ι ο κ : Type*} (M : Machine σ ι ο) (owed : σ → Multiset κ) (due : ι → Multiset κ)
  (settled : ο → Multiset κ)

/-- The outputs to a list of inputs. -/
def outputs : List ι → σ → List ο
  | [], _ => []
  | i :: is, s => (M.step i s).1 :: outputs is (M.step i s).2

def dueBy (is : List ι) : Multiset κ := (is.map due).sum

def settledBy (os : List ο) : Multiset κ := (os.map settled).sum

@[simp] theorem dueBy_nil : dueBy due [] = 0 := rfl

@[simp] theorem dueBy_cons (i : ι) (is : List ι) : dueBy due (i :: is) = due i + dueBy due is :=
  List.sum_cons

@[simp] theorem settledBy_nil : settledBy settled [] = 0 := rfl

@[simp] theorem settledBy_cons (o : ο) (os : List ο) :
    settledBy settled (o :: os) = settled o + settledBy settled os := List.sum_cons

/-- One step settles or keeps what was owed and what became due. -/
def Balanced (s : σ) (i : ι) : Prop :=
  owed s + due i = settled (M.step i s).1 + owed (M.step i s).2

variable {M owed due settled}

theorem run_balanced {s : σ} {is : List ι} (h : M.Along (M.Balanced owed due settled) s is) :
    owed s + dueBy due is = settledBy settled (M.outputs is s) + owed (M.run is s) := by
  induction is generalizing s with
  | nil => simp [outputs, run]
  | cons i is ih =>
    obtain ⟨hstep, hrest⟩ := h
    have hrest := ih hrest
    rw [Balanced] at hstep
    rw [dueBy_cons, outputs, settledBy_cons, run, ← add_assoc, hstep, add_assoc, hrest, add_assoc]

theorem settled_eq_due {s : σ} {is : List ι} (h : M.Along (M.Balanced owed due settled) s is)
    (hstart : owed s = 0) (hend : owed (M.run is s) = 0) :
    settledBy settled (M.outputs is s) = dueBy due is := by
  have hrun := run_balanced h
  rw [hstart, hend, zero_add, add_zero] at hrun
  exact hrun.symm

theorem split_at {α : Type} {l : List α} {i : ℕ} {a : α} (h : l[i]? = some a) :
    ∃ before rest, l = before ++ a :: rest ∧ l.eraseIdx i = before ++ rest := by
  induction l generalizing i with
  | nil => cases h
  | cons b l ih =>
    cases i with
    | zero =>
      cases h
      exact ⟨[], l, rfl, rfl⟩
    | succ i =>
      obtain ⟨before, rest, hl, herase⟩ := ih (by simpa using h)
      exact ⟨b :: before, rest, by rw [hl, List.cons_append],
        by rw [List.eraseIdx_cons_succ, herase, List.cons_append]⟩

end Machine
