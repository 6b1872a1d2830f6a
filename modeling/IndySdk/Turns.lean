import IndySdk.Lockstep
import Mathlib.Algebra.BigOperators.Group.List.Basic

/-!
# Work done in turns

An actor works on several inputs at once. It starts on an input in one turn, and while that input
waits for something outside, other inputs have turns. No turn is interrupted, but between two
turns of one input the state may have changed. When every turn guarantees a relation between the
state before and after it, and what a waiting input relies on survives the relation, every turn of
every run does what it does on its own.
-/

open Option

/-- How an input is started and resumed: it waits again, or there is a result. After a fatal
result nothing has a turn any more. -/
structure Turns (σ ι κ ω ρ : Type*) where
  start : ι → σ → (κ ⊕ ρ) × σ
  resume : κ → ω → σ → (κ ⊕ ρ) × σ
  fatal : ρ → Bool

namespace Turns

/-- A waiting input, with the states before and after each of its turns. -/
structure Flight (σ κ : Type*) where
  waiting : κ
  spans : List (σ × σ)

structure Running (σ κ : Type*) where
  state : σ
  flights : List (Flight σ κ) := []
  stopped : Bool := false

inductive Event (ι ω : Type*) where
  | start (input : ι)
  | resume (index : ℕ) (world : ω)

variable {σ ι κ ω ρ : Type*} (T : Turns σ ι κ ω ρ)

/-- The turn that an event gives, after the earlier turns of its input. -/
def turn (s : Running σ κ) : Event ι ω → Option (List (σ × σ) × (κ ⊕ ρ) × σ)
  | .start input => if s.stopped then none else some ([], T.start input s.state)
  | .resume index world =>
    if s.stopped then none
    else s.flights[index]?.map fun flight =>
      (flight.spans, T.resume flight.waiting world s.state)

/-- The inputs that wait while an event gives another one a turn. -/
def Running.others (s : Running σ κ) : Event ι ω → List (Flight σ κ)
  | .start _ => s.flights
  | .resume index _ => s.flights.eraseIdx index

def machine : Machine (Running σ κ) (Event ι ω) (Option ρ) where
  step event s :=
    match T.turn s event with
    | none => (none, s)
    | some (spans, .inl waiting, state) =>
      (none, ⟨state, s.others event ++ [⟨waiting, spans ++ [(s.state, state)]⟩], false⟩)
    | some (_, .inr result, state) => (some result, ⟨state, s.others event, T.fatal result⟩)

/-! What an event reports. -/

variable {s : Running σ κ}

theorem output_of_stopped (h : s.stopped = true) (event : Event ι ω) :
    (T.machine.step event s).1 = none := by
  have hturn : T.turn s event = none := by
    cases event with
    | start input => exact if_pos h
    | resume index world => exact if_pos h
  unfold machine
  dsimp only
  rw [hturn]

theorem output_start_iff (h : s.stopped = false) {input : ι} {result : ρ} :
    (T.machine.step (.start input) s).1 = some result ↔
      (T.start input s.state).1 = .inr result := by
  have hturn : T.turn s (.start input : Event ι ω) = some ([], T.start input s.state) :=
    if_neg (Bool.eq_false_iff.mp h)
  unfold machine
  dsimp only
  rw [hturn]
  cases T.start input s.state with
  | mk next state => cases next <;> simp

theorem output_resume_iff (h : s.stopped = false) {index : ℕ} {world : ω} {result : ρ} :
    (T.machine.step (.resume index world) s).1 = some result ↔
      ∃ flight, s.flights[index]? = some flight ∧
        (T.resume flight.waiting world s.state).1 = .inr result := by
  have hturn : T.turn s (.resume index world : Event ι ω) = s.flights[index]?.map fun flight =>
      (flight.spans, T.resume flight.waiting world s.state) := if_neg (Bool.eq_false_iff.mp h)
  unfold machine
  dsimp only
  rw [hturn]
  cases s.flights[index]? with
  | none => simp
  | some flight =>
    rw [map_some]
    cases hresume : T.resume flight.waiting world s.state with
    | mk next state => cases next <;> simp [hresume]

/-- The turn of an event is a step, and a result fits the turns of its input. -/
def Meets (Step : σ → σ → Prop) (Report : List (σ × σ) → ρ → Prop) (s : Running σ κ)
    (event : Event ι ω) : Prop :=
  ∀ spans next state, T.turn s event = some (spans, next, state) →
    Step s.state state ∧ ∀ result, next = .inr result → Report (spans ++ [(s.state, state)]) result

/-- A condition on the state, the earlier turns and what the next one is given. -/
def Allows (C : σ → List (σ × σ) → ι ⊕ κ × ω → Prop) (s : Running σ κ) : Event ι ω → Prop
  | .start input => C s.state [] (.inl input)
  | .resume index world => ∀ flight, s.flights[index]? = some flight →
    C s.state flight.spans (.inr (flight.waiting, world))

section Rely

variable {T} {C : σ → List (σ × σ) → ι ⊕ κ × ω → Prop} {Inv : σ → Prop}
  {Own : σ → List (σ × σ) → κ → Prop} {Step : σ → σ → Prop} {Report : List (σ × σ) → ρ → Prop}

/-- What one turn does on its own. -/
structure Keeps (Inv : σ → Prop) (Own : σ → List (σ × σ) → κ → Prop) (Step : σ → σ → Prop)
    (Report : List (σ × σ) → ρ → Prop) (s : σ) (spans : List (σ × σ)) (r : (κ ⊕ ρ) × σ) :
    Prop where
  inv : Inv r.2
  step : Step s r.2
  own : ∀ waiting, r.1 = .inl waiting → Own r.2 (spans ++ [(s, r.2)]) waiting
  report : ∀ result, r.1 = .inr result → Report (spans ++ [(s, r.2)]) result

/-- Every allowed turn keeps the invariant, guarantees a step, and leaves behind what its input
relies on, which the steps of others do not take away. -/
structure Relies (T : Turns σ ι κ ω ρ) (C : σ → List (σ × σ) → ι ⊕ κ × ω → Prop) (Inv : σ → Prop)
    (Own : σ → List (σ × σ) → κ → Prop) (Step : σ → σ → Prop)
    (Report : List (σ × σ) → ρ → Prop) : Prop where
  start : ∀ {s input}, Inv s → C s [] (.inl input) →
    Keeps Inv Own Step Report s [] (T.start input s)
  resume : ∀ {s spans waiting world}, Inv s → Own s spans waiting →
    C s spans (.inr (waiting, world)) →
      Keeps Inv Own Step Report s spans (T.resume waiting world s)
  stable : ∀ {s s' spans waiting}, Step s s' → Own s spans waiting → Own s' spans waiting

/-- The invariant holds, and every waiting input has what it relies on. -/
def Running.Reliable (Inv : σ → Prop) (Own : σ → List (σ × σ) → κ → Prop) (s : Running σ κ) :
    Prop :=
  Inv s.state ∧ ∀ flight ∈ s.flights, Own s.state flight.spans flight.waiting

variable {s : Running σ κ} {event : Event ι ω}

theorem Relies.turn (h : Relies T C Inv Own Step Report) (hs : s.Reliable Inv Own)
    (hC : Allows C s event) {spans : List (σ × σ)} {r : (κ ⊕ ρ) × σ}
    (hturn : T.turn s event = some (spans, r)) : Keeps Inv Own Step Report s.state spans r := by
  cases event with
  | start input =>
    obtain ⟨-, he⟩ := ite_none_left_eq_some.mp hturn
    cases he
    exact h.start hs.1 hC
  | resume index world =>
    obtain ⟨-, hmap⟩ := ite_none_left_eq_some.mp hturn
    obtain ⟨flight, hflight, he⟩ := map_eq_some_iff.mp hmap
    cases he
    exact h.resume hs.1 (hs.2 flight (List.mem_of_getElem? hflight)) (hC flight hflight)

theorem Running.mem_of_mem_others {flight : Flight σ κ} (h : flight ∈ s.others event) :
    flight ∈ s.flights := by
  cases event with
  | start input => exact h
  | resume index world => exact List.mem_of_mem_eraseIdx h

theorem Relies.step (h : Relies T C Inv Own Step Report) (hs : s.Reliable Inv Own)
    (hC : Allows C s event) :
    T.Meets Step Report s event ∧ (T.machine.step event s).2.Reliable Inv Own := by
  constructor
  · intro spans next state hturn
    have hkeeps := h.turn hs hC hturn
    exact ⟨hkeeps.step, hkeeps.report⟩
  · unfold machine
    dsimp only
    cases hturn : T.turn s event with
    | none => exact hs
    | some p =>
      obtain ⟨spans, next, state⟩ := p
      have hkeeps := h.turn hs hC hturn
      have hothers : ∀ flight ∈ s.others event, Own state flight.spans flight.waiting :=
        fun flight hflight =>
          h.stable hkeeps.step (hs.2 flight (Running.mem_of_mem_others hflight))
      cases next with
      | inr result => exact ⟨hkeeps.inv, hothers⟩
      | inl waiting =>
        refine ⟨hkeeps.inv, fun flight hflight => ?_⟩
        rcases List.mem_append.mp hflight with hflight | hflight
        · exact hothers flight hflight
        · rw [List.mem_singleton.mp hflight]
          exact hkeeps.own waiting rfl

theorem Relies.along (h : Relies T C Inv Own Step Report) (hs : s.Reliable Inv Own)
    {events : List (Event ι ω)} (hC : T.machine.Along (Allows C) s events) :
    T.machine.Along (T.Meets Step Report) s events :=
  Machine.along_of_along (fun _ _ hs hC => h.step hs hC) hs hC

end Rely

section Shares

/-! A waiting input may hold a share of something. What the shares add up to is bounded by the
state: a turn may exchange the share of its own input, whatever the others hold. -/

variable {T} {M : Type*} [AddCommMonoid M] (w : κ → M)

def total (flights : List (Flight σ κ)) : M := (flights.map fun flight => w flight.waiting).sum

/-- What an input holds after its turn. -/
def shareOf : κ ⊕ ρ → M
  | .inl waiting => w waiting
  | .inr _ => 0

variable {s : Running σ κ}

theorem total_others {index : ℕ} {world : ω} {flight : Flight σ κ}
    (h : s.flights[index]? = some flight) :
    total w s.flights =
      total w (s.others (.resume index world : Event ι ω)) + w flight.waiting := by
  have hperm : s.flights.Perm (flight :: s.flights.eraseIdx index) := by
    obtain ⟨hlt, he⟩ := List.getElem?_eq_some_iff.mp h
    rw [← he]
    exact (List.getElem_cons_eraseIdx_perm hlt).symm
  unfold total Running.others
  rw [(hperm.map _).sum_eq, List.map_cons, List.sum_cons, add_comm]

theorem stopped_step (hfatal : ∀ result, T.fatal result = false) (h : s.stopped = false)
    (event : Event ι ω) : (T.machine.step event s).2.stopped = false := by
  unfold machine
  dsimp only
  split
  · exact h
  · rfl
  · exact hfatal _

theorem total_step {event : Event ι ω} {spans : List (σ × σ)} {r : (κ ⊕ ρ) × σ}
    (h : T.turn s event = some (spans, r)) :
    (T.machine.step event s).2.state = r.2 ∧
      total w (T.machine.step event s).2.flights = total w (s.others event) + shareOf w r.1 := by
  obtain ⟨next, state⟩ := r
  unfold machine total
  dsimp only
  rw [h]
  cases next with
  | inl waiting => exact ⟨rfl, by simp [shareOf]⟩
  | inr result => exact ⟨rfl, by simp [shareOf]⟩

variable {w} {Allowed : Running σ κ → Event ι ω → Prop} {Bound : σ → M → Prop}

/-- Every allowed turn exchanges shares within the bound. -/
structure Shares (T : Turns σ ι κ ω ρ) (w : κ → M) (Allowed : Running σ κ → Event ι ω → Prop)
    (Bound : σ → M → Prop) : Prop where
  start : ∀ {s : Running σ κ} {input}, Allowed s (.start input) →
    Bound s.state (total w s.flights) →
      Bound (T.start input s.state).2 (total w s.flights + shareOf w (T.start input s.state).1)
  resume : ∀ {s : Running σ κ} {index world flight rest}, Allowed s (.resume index world) →
    s.flights[index]? = some flight → Bound s.state (rest + w flight.waiting) →
      Bound (T.resume flight.waiting world s.state).2
        (rest + shareOf w (T.resume flight.waiting world s.state).1)

theorem Shares.step (h : Shares T w Allowed Bound) {event : Event ι ω}
    (hs : Bound s.state (total w s.flights)) (hallowed : Allowed s event) :
    Bound (T.machine.step event s).2.state (total w (T.machine.step event s).2.flights) := by
  cases hturn : T.turn s event with
  | none =>
    unfold machine
    dsimp only
    rw [hturn]
    exact hs
  | some p =>
    obtain ⟨spans, r⟩ := p
    obtain ⟨hstate, htotal⟩ := total_step w hturn
    rw [hstate, htotal]
    cases event with
    | start input =>
      obtain ⟨-, he⟩ := ite_none_left_eq_some.mp hturn
      cases he
      exact h.start hallowed hs
    | resume index world =>
      obtain ⟨-, hmap⟩ := ite_none_left_eq_some.mp hturn
      obtain ⟨flight, hflight, he⟩ := map_eq_some_iff.mp hmap
      cases he
      apply h.resume hallowed hflight
      rw [← total_others w hflight]
      exact hs

end Shares

end Turns
