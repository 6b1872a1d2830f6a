import IndySdk.Outcome

/-!
# Computations that keep what they did

A computation over a state returns an outcome together with the state it leaves. A failure ends it,
and what was written before the failure stays written. Triples have a postcondition for each way to
end, and a computation is atomic when the failures of a given kind leave the state alone.
-/

universe u v w

def Stateful (σ : Type v) (ε : Type u) (α : Type v) : Type (max u v) := σ → Outcome ε α × σ

namespace Stateful

variable {σ : Type v} {ε : Type u} {α β : Type v}

protected def bind (x : Stateful σ ε α) (f : α → Stateful σ ε β) : Stateful σ ε β := fun s =>
  match x s with
  | (.ok a, s) => f a s
  | (.err e, s) => (.err e, s)
  | (.panic, s) => (.panic, s)

instance : Monad (Stateful σ ε) where
  pure a := fun s => (.ok a, s)
  bind := Stateful.bind

/-- A computation that only looks at the state. -/
def read (f : σ → Outcome ε α) : Stateful σ ε α := fun s => (f s, s)

theorem bind_ok {x : Stateful σ ε α} {f : α → Stateful σ ε β} {s s' : σ} {a : α}
    (h : x s = (.ok a, s')) : (x >>= f) s = f a s' := by
  change Stateful.bind x f s = f a s'
  rw [Stateful.bind, h]

theorem bind_err {x : Stateful σ ε α} {f : α → Stateful σ ε β} {s s' : σ} {e : ε}
    (h : x s = (.err e, s')) : (x >>= f) s = (.err e, s') := by
  change Stateful.bind x f s = (.err e, s')
  rw [Stateful.bind, h]

theorem bind_panic {x : Stateful σ ε α} {f : α → Stateful σ ε β} {s s' : σ}
    (h : x s = (.panic, s')) : (x >>= f) s = (.panic, s') := by
  change Stateful.bind x f s = (.panic, s')
  rw [Stateful.bind, h]

theorem bind_eq_ok_iff {x : Stateful σ ε α} {f : α → Stateful σ ε β} {s s' : σ} {b : β} :
    (x >>= f) s = (.ok b, s') ↔ ∃ a t, x s = (.ok a, t) ∧ f a t = (.ok b, s') := by
  cases hrun : x s with
  | mk o t =>
    cases o with
    | ok a =>
      rw [bind_ok hrun]
      constructor
      · exact fun h => ⟨a, t, rfl, h⟩
      · rintro ⟨a', t', heq, h⟩
        cases heq
        exact h
    | err e =>
      rw [bind_err hrun]
      exact ⟨fun h => (nomatch h), fun ⟨_, _, heq, _⟩ => (nomatch heq)⟩
    | panic =>
      rw [bind_panic hrun]
      exact ⟨fun h => (nomatch h), fun ⟨_, _, heq, _⟩ => (nomatch heq)⟩

theorem read_eq_ok_iff {g : σ → Outcome ε α} {s s' : σ} {a : α} :
    read g s = (.ok a, s') ↔ g s = .ok a ∧ s' = s := by
  rw [read, Prod.mk.injEq]
  exact and_congr_right (fun _ => eq_comm)

theorem pure_eq_ok_iff {s s' : σ} {a b : α} :
    (pure a : Stateful σ ε α) s = (.ok b, s') ↔ b = a ∧ s' = s := by
  change (Outcome.ok a, s) = (Outcome.ok b, s') ↔ _
  rw [Prod.mk.injEq, Outcome.ok.injEq]
  exact and_congr eq_comm eq_comm

/-! ### Triples -/

/-- From a state of the precondition the computation ends well in one of its postcondition, or ends
otherwise in a state of the other one. -/
def Triple (P : σ → Prop) (x : Stateful σ ε α) (Q : α → σ → Prop) (E : σ → Prop) : Prop :=
  ∀ s, P s → match x s with
    | (.ok a, s') => Q a s'
    | (.err _, s') | (.panic, s') => E s'

variable {P E : σ → Prop} {Q : α → σ → Prop} {R : β → σ → Prop} {x : Stateful σ ε α}
  {f : α → Stateful σ ε β}

theorem triple_pure {a : α} (h : ∀ s, P s → Q a s) : Triple P (pure a : Stateful σ ε α) Q E :=
  fun s hs => h s hs

theorem triple_bind (hx : Triple P x Q E) (hf : ∀ a, Triple (Q a) (f a) R E) :
    Triple P (x >>= f) R E := by
  intro s hs
  have h := hx s hs
  cases hrun : x s with
  | mk o s' =>
    rw [hrun] at h
    cases o with
    | ok a =>
      rw [bind_ok hrun]
      exact hf a s' h
    | err e =>
      rw [bind_err hrun]
      exact h
    | panic =>
      rw [bind_panic hrun]
      exact h

theorem triple_read {g : σ → Outcome ε α} (hok : ∀ s a, P s → g s = .ok a → Q a s)
    (hfail : ∀ s, P s → E s) : Triple P (read g) Q E := by
  intro s hs
  rw [read]
  cases hg : g s with
  | ok a => exact hok s a hs hg
  | err e => exact hfail s hs
  | panic => exact hfail s hs

theorem Triple.of_pre {P' : σ → Prop} (h : Triple P x Q E) (hpre : ∀ s, P' s → P s) :
    Triple P' x Q E :=
  fun s hs => h s (hpre s hs)

theorem triple_of_fact {p : Prop} (h : p → Triple P x Q E) : Triple (fun s => P s ∧ p) x Q E :=
  fun s hs => h hs.2 s hs.1

theorem triple_map {g : α → β} (hx : Triple P x (fun _ => E) E) :
    Triple P (g <$> x) (fun _ => E) E :=
  triple_bind hx (fun _ => triple_pure (fun _ h => h))

theorem Triple.ends {I : σ → Prop} (h : Triple P x (fun _ => I) I) {s : σ} (hs : P s) :
    I (x s).2 := by
  have hrun := h s hs
  split at hrun
  · rename_i heq
    rwa [heq]
  · rename_i heq
    rwa [heq]
  · rename_i heq
    rwa [heq]

/-! ### Atomic failures -/

variable (fails : ε → Prop)

/-- A failure of the given kind leaves the state as it was. -/
def AtomicAt (x : Stateful σ ε α) (s : σ) : Prop :=
  ∀ e, (x s).1 = .err e → fails e → (x s).2 = s

variable {fails}

theorem atomicAt_of_same {s : σ} (h : (x s).2 = s) : AtomicAt fails x s := fun _ _ _ => h

theorem atomicAt_of_ok {s : σ} {a : α} (h : (x s).1 = .ok a) : AtomicAt fails x s := by
  intro e he
  rw [h] at he
  cases he

theorem atomicAt_read_bind {g : σ → Outcome ε α} {s : σ} :
    AtomicAt fails (read g >>= f) s ↔ ∀ a, g s = .ok a → AtomicAt fails (f a) s := by
  unfold AtomicAt
  cases hg : g s with
  | ok a =>
    have hrun : (read g >>= f) s = f a s := bind_ok (by rw [read, hg])
    rw [hrun]
    constructor
    · rintro h _ ⟨⟩
      exact h
    · exact fun h => h a rfl
  | err e =>
    have hrun : (read g >>= f) s = (.err e, s) := bind_err (by rw [read, hg])
    rw [hrun]
    exact ⟨fun _ _ h => absurd h (Outcome.err_ne_ok e _), fun _ _ _ _ => rfl⟩
  | panic =>
    have hrun : (read g >>= f) s = (.panic, s) := bind_panic (by rw [read, hg])
    rw [hrun]
    exact ⟨fun _ _ h => absurd h (Outcome.panic_ne_ok _), fun _ _ _ _ => rfl⟩

theorem atomicAt_map {g : α → β} {s : σ} : AtomicAt fails (g <$> x) s ↔ AtomicAt fails x s := by
  have hmap : g <$> x = x >>= fun a => pure (g a) := rfl
  unfold AtomicAt
  rw [hmap]
  cases hrun : x s with
  | mk o s' =>
    cases o with
    | ok a =>
      rw [bind_ok hrun]
      exact iff_of_true (fun e h => absurd h.symm (Outcome.err_ne_ok e _))
        (fun e h => absurd h.symm (Outcome.err_ne_ok e _))
    | err e =>
      rw [bind_err hrun]
      exact ⟨fun h e' he => h e' (by rw [← Outcome.err.inj he]),
        fun h e' he => h e' (by rw [← Outcome.err.inj he])⟩
    | panic =>
      rw [bind_panic hrun]
      exact iff_of_true (fun _ h => by cases h) (fun _ h => by cases h)

end Stateful
