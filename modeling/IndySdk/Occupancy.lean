import Mathlib.Data.List.AList
import Mathlib.Logic.Function.Basic
import Mathlib.Tactic.Common

/-!
# Places that hold things

A partial function says what each place holds. It is exclusive when no two places hold the same
thing. Emptying a place keeps it exclusive; filling one keeps it exactly when no other place holds
the thing already.
-/

open Function

namespace Occupancy

variable {κ α β : Type*}

def Exclusive (f : κ → Option α) : Prop := ∀ x y a, f x = some a → f y = some a → x = y

theorem exclusive_none : Exclusive (fun _ : κ => (none : Option α)) := by
  intro x y a hx
  cases hx

variable [DecidableEq κ] {f : κ → Option α}

theorem Exclusive.empty (h : Exclusive f) (z : κ) : Exclusive (Function.update f z none) := by
  have hback : ∀ x a, Function.update f z none x = some a → f x = some a := by
    intro x a hx
    by_cases hz : x = z
    · rw [hz, update_self] at hx
      cases hx
    · rwa [update_of_ne hz] at hx
  intro x y a hx hy
  exact h x y a (hback x a hx) (hback y a hy)

theorem Exclusive.fill_iff (h : Exclusive f) (z : κ) (a : α) :
    Exclusive (Function.update f z (some a)) ↔ ∀ y, f y = some a → y = z := by
  constructor
  · intro hfill y hy
    by_contra hne
    exact hne (hfill y z a ((update_of_ne hne _ f).trans hy) (update_self ..))
  · intro hother x y b hx hy
    by_cases hxz : x = z
    · by_cases hyz : y = z
      · rw [hxz, hyz]
      · rw [hxz, update_self] at hx
        rw [update_of_ne hyz, ← hx] at hy
        exact absurd (hother y hy) hyz
    · rw [update_of_ne hxz] at hx
      by_cases hyz : y = z
      · rw [hyz, update_self] at hy
        rw [← hy] at hx
        exact absurd (hother x hx) hxz
      · rw [update_of_ne hyz] at hy
        exact h x y b hx hy

theorem Exclusive.move (h : Exclusive f) {x : κ} {a : α} (hx : f x = some a) (z : κ) :
    Exclusive (Function.update (Function.update f x none) z (some a)) := by
  refine ((h.empty x).fill_iff z a).mpr ?_
  intro y hy
  by_cases hyx : y = x
  · rw [hyx, update_self] at hy
    cases hy
  · rw [update_of_ne hyx] at hy
    exact absurd (h y x a hy hx) hyx

end Occupancy

namespace AList

variable {κ : Type*} {α : Type*} [DecidableEq κ]

end AList
