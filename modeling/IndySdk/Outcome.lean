import Mathlib.Algebra.Group.Nat.Defs
import Mathlib.Tactic.Common

/-!
# Computations that return, fail or panic

A fallible function of a systems language either returns a value, returns an error that its
caller may handle, or aborts the thread. `Outcome` keeps the three apart: binding passes errors
and panics through, and only errors can be caught by matching.

Word subtraction is stated for both build profiles, since a subtraction below zero aborts the
thread when overflow checks are on and wraps around when they are off; addition likewise.
-/

open List

universe u v w

theorem List.Forall₂.exists_of_mem {α : Type u} {β : Type v} {r : α → β → Prop} {l : List α}
    {l' : List β} (h : List.Forall₂ r l l') {a : α} (ha : a ∈ l) : ∃ b ∈ l', r a b := by
  induction h with
  | nil => cases ha
  | @cons x y xs ys hxy _ ih =>
    rcases mem_cons.mp ha with rfl | ha
    · exact ⟨y, mem_cons_self, hxy⟩
    · obtain ⟨b, hb, hab⟩ := ih ha
      exact ⟨b, mem_cons_of_mem y hb, hab⟩

inductive Outcome (ε : Type u) (α : Type v) where
  | ok (value : α)
  | err (error : ε)
  | panic
  deriving DecidableEq, Repr

namespace Outcome

variable {ε : Type u} {α β : Type v}

protected def bind (x : Outcome ε α) (f : α → Outcome ε β) : Outcome ε β :=
  match x with
  | .ok a => f a
  | .err e => .err e
  | .panic => .panic

instance : Monad (Outcome ε) where
  pure := .ok
  bind := Outcome.bind

@[simp] theorem pure_eq_ok (a : α) : (pure a : Outcome ε α) = .ok a := rfl

@[simp] theorem ok_bind (a : α) (f : α → Outcome ε β) : (Outcome.ok a >>= f) = f a := rfl

@[simp] theorem err_bind (e : ε) (f : α → Outcome ε β) : (Outcome.err e >>= f) = .err e := rfl

@[simp] theorem panic_bind (f : α → Outcome ε β) : (Outcome.panic >>= f) = .panic := rfl

@[simp] theorem map_ok (f : α → β) (a : α) : f <$> (Outcome.ok a : Outcome ε α) = .ok (f a) := rfl

@[simp] theorem map_err (f : α → β) (e : ε) : f <$> (Outcome.err e : Outcome ε α) = .err e := rfl

@[simp] theorem map_panic (f : α → β) : f <$> (Outcome.panic : Outcome ε α) = .panic := rfl

instance : LawfulMonad (Outcome ε) :=
  LawfulMonad.mk' _ (fun x => by cases x <;> rfl) (fun _ _ => rfl)
    (fun x _ _ => by cases x <;> rfl)

theorem err_ne_ok (e : ε) (a : α) : Outcome.err e ≠ .ok a := by
  intro h
  cases h

theorem panic_ne_ok (a : α) : (Outcome.panic : Outcome ε α) ≠ .ok a := by
  intro h
  cases h

variable {x : Outcome ε α}

theorem bind_ne_panic {f : α → Outcome ε β} (hx : x ≠ .panic) (hf : ∀ a, f a ≠ .panic) :
    (x >>= f) ≠ .panic := by
  cases x with
  | ok a => exact hf a
  | err e =>
    intro h
    cases h
  | panic => exact absurd rfl hx

theorem map_ne_panic (f : α → β) (hx : x ≠ .panic) : (f <$> x) ≠ .panic := by
  cases x with
  | ok a =>
    intro h
    cases h
  | err e =>
    intro h
    cases h
  | panic => exact absurd rfl hx

theorem ok_ne_panic (a : α) : (Outcome.ok a : Outcome ε α) ≠ .panic := by
  intro h
  cases h

theorem err_ne_panic (e : ε) : (Outcome.err e : Outcome ε α) ≠ .panic := by
  intro h
  cases h

theorem bind_eq_ok_iff {f : α → Outcome ε β} {b : β} :
    (x >>= f) = .ok b ↔ ∃ a, x = .ok a ∧ f a = .ok b := by
  cases x with
  | ok a => simp
  | err e => simp
  | panic => simp

theorem map_eq_ok_iff {f : α → β} {b : β} :
    (f <$> x) = .ok b ↔ ∃ a, x = .ok a ∧ f a = b := by
  cases x with
  | ok a => simp
  | err e => simp
  | panic => simp

theorem bind_eq_panic_iff {f : α → Outcome ε β} :
    (x >>= f) = .panic ↔ x = .panic ∨ ∃ a, x = .ok a ∧ f a = .panic := by
  cases x with
  | ok a => simp
  | err e => simp
  | panic => simp

theorem map_eq_panic_iff {f : α → β} : (f <$> x) = .panic ↔ x = .panic := by
  cases x with
  | ok a => simp
  | err e => simp
  | panic => simp

/-- A missing value reported as an error. -/
def ofOption (e : ε) : Option α → Outcome ε α
  | some a => .ok a
  | none => .err e

@[simp] theorem ofOption_some (e : ε) (a : α) : ofOption e (some a) = .ok a := rfl

@[simp] theorem ofOption_none (e : ε) : ofOption e (none : Option α) = .err e := rfl

@[simp] theorem ofOption_eq_ok {e : ε} {x : Option α} {a : α} :
    ofOption e x = .ok a ↔ x = some a := by
  cases x <;> simp

theorem ofOption_ne_panic (e : ε) (x : Option α) : ofOption e x ≠ .panic := by
  cases x with
  | some a => exact ok_ne_panic a
  | none => exact err_ne_panic e

/-- A missing value that aborts the thread. -/
def unwrap : Option α → Outcome ε α
  | some a => .ok a
  | none => .panic

@[simp] theorem unwrap_some (a : α) : (unwrap (some a) : Outcome ε α) = .ok a := rfl

@[simp] theorem unwrap_none : (unwrap (none : Option α) : Outcome ε α) = .panic := rfl

@[simp] theorem unwrap_eq_ok {x : Option α} {a : α} :
    (unwrap x : Outcome ε α) = .ok a ↔ x = some a := by
  cases x <;> simp

/-- A default in the place of an error; panics stay. -/
def unwrapOr (a : α) : Outcome ε α → Outcome Empty α
  | .ok b => .ok b
  | .err _ => .ok a
  | .panic => .panic

theorem unwrapOr_eq_ok_iff {a b : α} :
    unwrapOr a x = .ok b ↔ x = .ok b ∨ (∃ e, x = .err e) ∧ a = b := by
  cases x <;> simp [unwrapOr]

theorem unwrapOr_eq_panic_iff {a : α} : unwrapOr a x = .panic ↔ x = .panic := by
  cases x <;> simp [unwrapOr]

theorem exists_unwrapOr_eq_ok (a : α) (h : x ≠ .panic) :
    ∃ b, unwrapOr a x = .ok b := by
  cases x with
  | ok b => exact ⟨b, rfl⟩
  | err e => exact ⟨a, rfl⟩
  | panic => exact absurd rfl h

/-- Subtraction of machine words below `2 ^ width`. -/
def wordSub (width : ℕ) (overflowChecks : Bool) (a b : ℕ) : Outcome ε ℕ :=
  if b ≤ a then .ok (a - b)
  else if overflowChecks then .panic
  else .ok (a + 2 ^ width - b)

/-- Addition of machine words below `2 ^ width`. -/
def wordAdd (width : ℕ) (overflowChecks : Bool) (a b : ℕ) : Outcome ε ℕ :=
  if a + b < 2 ^ width then .ok (a + b)
  else if overflowChecks then .panic
  else .ok (a + b - 2 ^ width)

theorem wordSub_of_le {width : ℕ} {overflowChecks : Bool} {a b : ℕ} (h : b ≤ a) :
    (wordSub width overflowChecks a b : Outcome ε ℕ) = .ok (a - b) := if_pos h

theorem wordSub_of_lt_checked {width a b : ℕ} (h : a < b) :
    (wordSub width true a b : Outcome ε ℕ) = .panic := by
  rw [wordSub, if_neg (by omega), if_pos rfl]

theorem wordSub_of_lt_wrapping {width a b : ℕ} (h : a < b) :
    (wordSub width false a b : Outcome ε ℕ) = .ok (a + 2 ^ width - b) := by
  rw [wordSub, if_neg (by omega), if_neg (by decide)]

variable {r : List α}

theorem mapM_eq_ok_iff {γ : Type w} {f : γ → Outcome ε α} {l : List γ} :
    l.mapM f = .ok r ↔ l.map f = r.map .ok := by
  induction l generalizing r with
  | nil => cases r <;> simp
  | cons x l ih =>
    rw [mapM_cons, bind_eq_ok_iff]
    constructor
    · rintro ⟨a, ha, hr⟩
      obtain ⟨s, hs, he⟩ := bind_eq_ok_iff.mp hr
      cases he
      simp [ha, ih.mp hs]
    · intro h
      cases r with
      | nil => cases h
      | cons a s =>
        simp only [map_cons, List.cons.injEq] at h
        exact ⟨a, h.1, bind_eq_ok_iff.mpr ⟨s, ih.mpr h.2, rfl⟩⟩

theorem exists_of_mapM {γ : Type w} {f : γ → Outcome ε α} {l : List γ} (h : l.mapM f = .ok r)
    {x : γ} (hx : x ∈ l) : ∃ y ∈ r, f x = .ok y := by
  have hmem : f x ∈ l.map f := mem_map_of_mem hx
  rw [mapM_eq_ok_iff.mp h] at hmem
  obtain ⟨y, hy, heq⟩ := mem_map.mp hmem
  exact ⟨y, hy, heq.symm⟩

theorem mem_of_mapM {γ : Type w} {f : γ → Outcome ε α} {l : List γ} (h : l.mapM f = .ok r) {y : α}
    (hy : y ∈ r) : ∃ x ∈ l, f x = .ok y := by
  have hmem : (ok y : Outcome ε α) ∈ r.map ok := mem_map_of_mem hy
  rw [← mapM_eq_ok_iff.mp h] at hmem
  exact mem_map.mp hmem

theorem mapM_eq_ok_iff_forall₂ {γ : Type w} {f : γ → Outcome ε α} {l : List γ} :
    l.mapM f = .ok r ↔ List.Forall₂ (fun x a => f x = .ok a) l r := by
  rw [mapM_eq_ok_iff]
  constructor
  · intro h
    induction l generalizing r with
    | nil =>
      rw [map_nil, eq_comm, map_eq_nil_iff] at h
      rw [h]
      exact .nil
    | cons x l ih =>
      cases r with
      | nil => cases h
      | cons a r =>
        rw [map_cons, map_cons, List.cons.injEq] at h
        exact .cons h.1 (ih h.2)
  · intro h
    induction h with
    | nil => rfl
    | cons hab _ ih => rw [map_cons, map_cons, hab, ih]

theorem mapM_eq_panic_iff {γ : Type w} {f : γ → Outcome ε α} {l : List γ} :
    l.mapM f = .panic ↔ ∃ before x after, l = before ++ x :: after ∧
      (∀ y ∈ before, ∃ a, f y = .ok a) ∧ f x = .panic := by
  induction l with
  | nil => simp
  | cons x l ih =>
    rw [mapM_cons, bind_eq_panic_iff]
    constructor
    · rintro (hx | ⟨a, ha, hrest⟩)
      · exact ⟨[], x, l, rfl, fun y hy => absurd hy not_mem_nil, hx⟩
      · rcases bind_eq_panic_iff.mp hrest with hrest | ⟨s, -, hpure⟩
        · obtain ⟨before, y, after, rfl, hbefore, hy⟩ := ih.mp hrest
          refine ⟨x :: before, y, after, rfl, ?_, hy⟩
          intro z hz
          rcases mem_cons.mp hz with rfl | hz
          · exact ⟨a, ha⟩
          · exact hbefore z hz
        · cases hpure
    · rintro ⟨before, y, after, hl, hbefore, hy⟩
      cases before with
      | nil =>
        cases hl
        exact .inl hy
      | cons z before =>
        cases hl
        obtain ⟨a, ha⟩ := hbefore x mem_cons_self
        refine .inr ⟨a, ha, bind_eq_panic_iff.mpr (.inl (ih.mpr ?_))⟩
        exact ⟨before, y, after, rfl, fun w hw => hbefore w (mem_cons_of_mem _ hw), hy⟩

theorem mapM_ne_panic_iff {γ : Type w} {f : γ → Outcome ε α} {l : List γ}
    (h : ∀ x ∈ l, ∀ e, f x ≠ .err e) : l.mapM f ≠ .panic ↔ ∀ x ∈ l, f x ≠ .panic := by
  induction l with
  | nil => simp
  | cons x l ih =>
    have ih := ih fun y hy => h y (mem_cons_of_mem _ hy)
    rw [mapM_cons, forall_mem_cons, ← ih]
    cases hx : f x with
    | ok a =>
      rw [ok_bind, Ne, bind_eq_panic_iff]
      simp
    | err e => exact absurd hx (h x mem_cons_self e)
    | panic => simp

theorem exists_mapM_eq {γ : Type w} [Nonempty α] {f : γ → Outcome ε α} {l : List γ}
    {P : γ → α → Prop} (h : ∀ x ∈ l, ∃ a, f x = .ok a ∧ P x a) :
    ∃ g, l.mapM f = .ok (l.map g) ∧ ∀ x ∈ l, P x (g x) := by
  choose! g hg using h
  refine ⟨g, mapM_eq_ok_iff.mpr ?_, fun x hx => (hg x hx).2⟩
  rw [map_map]
  exact map_congr_left (fun x hx => (hg x hx).1)

end Outcome
