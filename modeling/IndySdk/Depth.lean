import IndySdk.Outcome
import Mathlib.Order.WellFoundedSet
import Mathlib.Logic.Relation

/-!
# Computations that recurse within a depth

A recursive computation takes the depth its recursion may reach and aborts beyond it. It comes to an
answer when every larger depth gives this answer. Recursion along references ends where the
references among a finite set have no cycle.
-/

namespace IndySdk.Depth

open Outcome

universe u v w

variable {ε : Type u} {α β : Type v} {γ : Type w}

/-- The answer that every depth from some on gives. -/
def ComesTo (run : ℕ → α) (answer : α) : Prop := ∃ enough, ∀ depth ≥ enough, run depth = answer

/-- The recursion ends with a value or an error. -/
def Ends (run : ℕ → Outcome ε α) : Prop := ∃ answer, answer ≠ .panic ∧ ComesTo run answer

theorem comesTo_const (answer : α) : ComesTo (fun _ => answer) answer := ⟨0, fun _ _ => rfl⟩

variable {run : ℕ → α}

theorem ComesTo.unique {a b : α} (ha : ComesTo run a) (hb : ComesTo run b) :
    a = b := by
  obtain ⟨n, hn⟩ := ha
  obtain ⟨m, hm⟩ := hb
  rw [← hn (n + m) (Nat.le_add_right n m), hm (n + m) (Nat.le_add_left m n)]

theorem comesTo_of_stable {n : ℕ} (h : ∀ depth ≥ n, run (depth + 1) = run depth) :
    ComesTo run (run n) := by
  refine ⟨n, fun depth hdepth => ?_⟩
  induction depth, hdepth using Nat.le_induction with
  | base => rfl
  | succ depth hdepth ih => rw [h depth hdepth, ih]

theorem ComesTo.of_succ {answer : α} (h : ComesTo (fun n => run (n + 1)) answer) :
    ComesTo run answer := by
  obtain ⟨n, hn⟩ := h
  refine ⟨n + 1, fun depth hdepth => ?_⟩
  obtain ⟨k, rfl⟩ := Nat.exists_eq_add_of_le hdepth
  have hk := hn (n + k) (Nat.le_add_right n k)
  rwa [show n + 1 + k = n + k + 1 by omega]

theorem ComesTo.bind {x : ℕ → Outcome ε α} {f : ℕ → α → Outcome ε β} {a : α} {b : Outcome ε β}
    (hx : ComesTo x (.ok a)) (hf : ComesTo (fun n => f n a) b) :
    ComesTo (fun n => x n >>= f n) b := by
  obtain ⟨n, hn⟩ := hx
  obtain ⟨m, hm⟩ := hf
  refine ⟨n + m, fun depth hdepth => ?_⟩
  have hd := hm depth (by omega)
  simp only at hd ⊢
  rw [hn depth (by omega), ok_bind, hd]

theorem ComesTo.map {answer : α} (g : α → γ) (h : ComesTo run answer) :
    ComesTo (fun n => g (run n)) (g answer) := by
  obtain ⟨n, hn⟩ := h
  exact ⟨n, fun depth hdepth => congrArg g (hn depth hdepth)⟩

theorem comesTo_mapM {f : γ → ℕ → Outcome ε α} {answer : γ → Outcome ε α} {l : List γ}
    (h : ∀ x ∈ l, ComesTo (f x) (answer x)) :
    ComesTo (fun n => l.mapM (fun x => f x n)) (l.mapM answer) := by
  induction l with
  | nil => exact comesTo_const _
  | cons x l ih =>
    obtain ⟨n, hn⟩ := h x List.mem_cons_self
    obtain ⟨m, hm⟩ := ih (fun y hy => h y (List.mem_cons_of_mem x hy))
    refine ⟨n + m, fun depth hdepth => ?_⟩
    have hd := hm depth (by omega)
    simp only at hd ⊢
    rw [List.mapM_cons, List.mapM_cons, hn depth (by omega), hd]

theorem ends_ok (a : α) : Ends (fun _ => (Outcome.ok a : Outcome ε α)) :=
  ⟨.ok a, ok_ne_panic a, comesTo_const _⟩

theorem ends_err (e : ε) : Ends (fun _ => (Outcome.err e : Outcome ε α)) :=
  ⟨.err e, err_ne_panic e, comesTo_const _⟩

theorem Ends.of_succ {run : ℕ → Outcome ε α} (h : Ends (fun n => run (n + 1))) : Ends run := by
  obtain ⟨answer, hne, hanswer⟩ := h
  exact ⟨answer, hne, hanswer.of_succ⟩

theorem Ends.bind {x : ℕ → Outcome ε α} {f : ℕ → α → Outcome ε β} (hx : Ends x)
    (hf : ∀ a, Ends (fun n => f n a)) : Ends (fun n => x n >>= f n) := by
  obtain ⟨answer, hne, hanswer⟩ := hx
  cases answer with
  | ok a =>
    obtain ⟨b, hb, hcomes⟩ := hf a
    exact ⟨b, hb, hanswer.bind hcomes⟩
  | err e =>
    obtain ⟨n, hn⟩ := hanswer
    refine ⟨.err e, err_ne_panic e, n, fun depth hdepth => ?_⟩
    simp only [hn depth hdepth, err_bind]
  | panic => exact absurd rfl hne

theorem Ends.map {run : ℕ → Outcome ε α} (g : α → β) (h : Ends run) :
    Ends (fun n => g <$> run n) := by
  obtain ⟨answer, hne, hanswer⟩ := h
  exact ⟨g <$> answer, map_ne_panic g hne, hanswer.map (g <$> ·)⟩

theorem Ends.unwrapOr {run : ℕ → Outcome ε α} (a : α) (h : Ends run) :
    Ends (fun n => Outcome.unwrapOr a (run n)) := by
  obtain ⟨answer, hne, hanswer⟩ := h
  exact ⟨Outcome.unwrapOr a answer, mt Outcome.unwrapOr_eq_panic_iff.mp hne,
    hanswer.map (Outcome.unwrapOr a)⟩

theorem Ends.exists_ok {run : ℕ → Outcome Empty α} (h : Ends run) :
    ∃ a, ComesTo run (.ok a) := by
  obtain ⟨answer, hne, hanswer⟩ := h
  cases answer with
  | ok a => exact ⟨a, hanswer⟩
  | err e => exact e.elim
  | panic => exact absurd rfl hne

theorem induction_of_acyclic {r : γ → γ → Prop} {s : Set γ} (hfinite : s.Finite)
    (hacyclic : ∀ x, ¬ Relation.TransGen r x x) {P : γ → Prop}
    (step : ∀ x ∈ s, (∀ y ∈ s, r x y → P y) → P x) : ∀ x ∈ s, P x := by
  have hirrefl : Std.Irrefl (fun x y => Relation.TransGen r y x) := ⟨hacyclic⟩
  have htrans : IsTrans γ (fun x y => Relation.TransGen r y x) :=
    ⟨fun _ _ _ hxy hyz => hyz.trans hxy⟩
  have horder : IsStrictOrder γ (fun x y => Relation.TransGen r y x) := { hirrefl, htrans with }
  intro x hx
  refine (hfinite.wellFoundedOn (r := fun x y => Relation.TransGen r y x)).induction hx ?_
  intro y hy ih
  exact step y hy (fun z hz hyz => ih z hz (Relation.TransGen.single hyz))

end IndySdk.Depth
