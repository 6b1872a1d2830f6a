import Mathlib.Algebra.GroupWithZero.Nat
import Mathlib.Data.List.Perm.Basic
import Mathlib.Data.List.Nodup
import Mathlib.Algebra.BigOperators.Group.List.Basic
import IndySdk.Lockstep

/-!
# Workers that share a list

One worker is started for each number below a bound. A worker computes alone and then appends its
value, with its number, to a list that all share; it may also end without a value or abort. Starts
and steps of workers come in any order. When every worker was started and has ended, the list is a
permutation of the values that there are.
-/

open List

namespace WorkerPool

/-- What a worker comes to. -/
inductive Job (β : Type*) where
  | publish (value : β)
  | withhold
  | abort
  deriving DecidableEq

inductive Phase (β : Type*) where
  | started
  | holding (value : β)
  | finished
  | aborted

structure State (β : Type*) where
  workers : List (Phase β) := []
  shared : List (ℕ × β) := []

inductive Event where
  | spawn
  | work (i : ℕ)

variable {β : Type*}

def Job.next : Job β → Phase β
  | .publish b => .holding b
  | .withhold => .finished
  | .abort => .aborted

def State.work (s : State β) (job : ℕ → Job β) (i : ℕ) : State β :=
  match s.workers[i]? with
  | some .started => { s with workers := s.workers.set i (job i).next }
  | some (.holding b) => ⟨s.workers.set i .finished, s.shared ++ [(i, b)]⟩
  | some .finished | some .aborted | none => s

def pool (job : ℕ → Job β) (size : ℕ) : Machine (State β) Event Unit where
  step
    | .spawn, s =>
      ((), if s.workers.length < size then { s with workers := s.workers ++ [.started] } else s)
    | .work i, s => ((), s.work job i)

def Phase.ended : Phase β → Bool
  | .finished | .aborted => true
  | .started | .holding _ => false

def Phase.isAborted : Phase β → Bool
  | .aborted => true
  | .started | .holding _ | .finished => false

def State.anyAborted (s : State β) : Bool := s.workers.any Phase.isAborted

/-- Every worker was started and has ended. -/
def State.Joined (s : State β) (size : ℕ) : Prop :=
  s.workers.length = size ∧ ∀ phase ∈ s.workers, phase.ended = true

/-- An order of starts and steps after which every worker has ended. -/
structure Schedule (job : ℕ → Job β) (size : ℕ) where
  events : List Event
  joined : ((pool job size).run events {}).Joined size

def Schedule.final {job : ℕ → Job β} {size : ℕ} (schedule : Schedule job size) : State β :=
  (pool job size).run schedule.events {}

/-- A phase that a worker with the given job can be in. -/
def Phase.Fits : Phase β → Job β → Prop
  | .started, _ => True
  | .holding b, job => job = .publish b
  | .finished, job => job ≠ .abort
  | .aborted, job => job = .abort

/-- Each phase fits its job, and the list has the values of the workers that are done with
theirs, each once. -/
structure Invariant (job : ℕ → Job β) (size : ℕ) (s : State β) : Prop where
  length_le : s.workers.length ≤ size
  fits : ∀ i (phase : Phase β), s.workers[i]? = some phase → phase.Fits (job i)
  nodup : (s.shared.map Prod.fst).Nodup
  shared_iff : ∀ i b, (i, b) ∈ s.shared ↔
    s.workers[i]? = some .finished ∧ job i = .publish b

variable {job : ℕ → Job β} {size : ℕ} {s : State β} {i : ℕ}

theorem invariant_start : Invariant job size ({} : State β) := by
  refine ⟨Nat.zero_le _, ?_, nodup_nil, ?_⟩
  · intro i phase h
    cases h
  · intro i b
    constructor
    · intro h
      cases h
    · rintro ⟨h, -⟩
      cases h

theorem Invariant.spawn (h : Invariant job size s) (hlt : s.workers.length < size) :
    Invariant job size { s with workers := s.workers ++ [.started] } := by
  refine ⟨?_, ?_, h.nodup, ?_⟩
  · rw [length_append]
    exact hlt
  · intro i phase hphase
    rw [getElem?_append] at hphase
    split at hphase
    · exact h.fits i phase hphase
    · obtain rfl : phase = .started := mem_singleton.mp (mem_of_getElem? hphase)
      trivial
  · intro i b
    rw [h.shared_iff, getElem?_append]
    split
    · rfl
    · rename_i hout
      rw [getElem?_eq_none (by omega : s.workers.length ≤ i)]
      constructor
      · rintro ⟨hnone, -⟩
        cases hnone
      · rintro ⟨hstarted, -⟩
        cases mem_singleton.mp (mem_of_getElem? hstarted)

theorem getElem?_set_self {l : List (Phase β)} {old new : Phase β} (h : l[i]? = some old) :
    (l.set i new)[i]? = some new := by
  rw [List.getElem?_set_self (List.getElem?_eq_some_iff.mp h).1]

theorem Invariant.compute (h : Invariant job size s) (hstarted : s.workers[i]? = some .started) :
    Invariant job size { s with workers := s.workers.set i (job i).next } := by
  refine ⟨?_, ?_, h.nodup, ?_⟩
  · rw [length_set]
    exact h.length_le
  · intro j phase hphase
    by_cases hj : i = j
    · subst hj
      rw [getElem?_set_self hstarted, Option.some.injEq] at hphase
      subst hphase
      cases hjob : job i <;> simp [Job.next, Phase.Fits]
    · rw [getElem?_set_ne hj] at hphase
      exact h.fits j phase hphase
  · intro j b
    rw [h.shared_iff]
    by_cases hj : i = j
    · subst hj
      rw [getElem?_set_self hstarted, hstarted]
      cases hjob : job i <;> simp [Job.next]
    · rw [getElem?_set_ne hj]

theorem Invariant.notMem (h : Invariant job size s) (hphase : s.workers[i]? ≠ some .finished) :
    i ∉ s.shared.map Prod.fst := by
  intro hmem
  obtain ⟨⟨j, b⟩, hj, rfl⟩ := mem_map.mp hmem
  exact hphase ((h.shared_iff j b).mp hj).1

theorem Invariant.publish {b : β} (h : Invariant job size s)
    (hholding : s.workers[i]? = some (.holding b)) :
    Invariant job size ⟨s.workers.set i .finished, s.shared ++ [(i, b)]⟩ := by
  have hjob : job i = .publish b := h.fits i _ hholding
  have hnot : i ∉ s.shared.map Prod.fst :=
    h.notMem (by rw [hholding]; exact fun heq => nomatch Option.some.inj heq)
  refine ⟨?_, ?_, ?_, ?_⟩
  · rw [length_set]
    exact h.length_le
  · intro j phase hphase
    by_cases hj : i = j
    · subst hj
      rw [getElem?_set_self hholding, Option.some.injEq] at hphase
      subst hphase
      simp [Phase.Fits, hjob]
    · rw [getElem?_set_ne hj] at hphase
      exact h.fits j phase hphase
  · rw [map_append, nodup_append']
    exact ⟨h.nodup, nodup_singleton i, by simpa using hnot⟩
  · intro j b'
    rw [mem_append, h.shared_iff, mem_singleton]
    by_cases hj : i = j
    · subst hj
      rw [getElem?_set_self hholding, hholding, hjob]
      simp [eq_comm]
    · rw [getElem?_set_ne hj]
      simp [Ne.symm hj]

theorem Invariant.step (h : Invariant job size s) (event : Event) :
    Invariant job size ((pool job size).step event s).2 := by
  cases event with
  | spawn =>
    change Invariant job size (if _ then _ else _)
    split
    · rename_i hlt
      exact h.spawn hlt
    · exact h
  | work i =>
    change Invariant job size (s.work job i)
    rw [State.work]
    split
    · rename_i hstarted
      exact h.compute hstarted
    · rename_i hholding
      exact h.publish hholding
    · exact h
    · exact h
    · exact h

theorem Invariant.run (h : Invariant job size s) (events : List Event) :
    Invariant job size ((pool job size).run events s) := by
  induction events generalizing s with
  | nil => exact h
  | cons event rest ih => exact ih (h.step event)

theorem Schedule.invariant (schedule : Schedule job size) :
    Invariant job size schedule.final := invariant_start.run schedule.events

/-- The values that there are, in the order of the workers. -/
def published (job : ℕ → Job β) (size : ℕ) : List (ℕ × β) :=
  (List.range size).filterMap fun i =>
    match job i with
    | .publish b => some (i, b)
    | .withhold | .abort => none

theorem mem_published {b : β} :
    (i, b) ∈ published job size ↔ i < size ∧ job i = .publish b := by
  rw [published, mem_filterMap]
  constructor
  · rintro ⟨j, hj, hvalue⟩
    cases hjob : job j with
    | publish c =>
      rw [hjob] at hvalue
      cases hvalue
      exact ⟨mem_range.mp hj, hjob⟩
    | withhold =>
      rw [hjob] at hvalue
      cases hvalue
    | abort =>
      rw [hjob] at hvalue
      cases hvalue
  · rintro ⟨hi, hjob⟩
    exact ⟨i, mem_range.mpr hi, by rw [hjob]⟩

theorem published_nodup : (published job size).Nodup := by
  refine List.Nodup.filterMap ?_ nodup_range
  have hindex : ∀ (i : ℕ) (p : ℕ × β), p ∈ (match job i with
      | .publish b => some (i, b)
      | .withhold | .abort => none) → p.1 = i := by
    intro i p hp
    split at hp
    · cases hp
      rfl
    · cases hp
    · cases hp
  intro i j p hi hj
  rw [← hindex i p hi, ← hindex j p hj]

theorem Schedule.length_workers (schedule : Schedule job size) :
    schedule.final.workers.length = size := schedule.joined.1

theorem Schedule.ended (schedule : Schedule job size) (hi : i < size) :
    schedule.final.workers[i]? = some .finished ∧ job i ≠ .abort ∨
      schedule.final.workers[i]? = some .aborted ∧ job i = .abort := by
  have hlen : i < schedule.final.workers.length := by rw [schedule.length_workers]; exact hi
  have hget := getElem?_eq_getElem hlen
  have hended := schedule.joined.2 _ (getElem_mem hlen)
  have hfits := schedule.invariant.fits i _ hget
  cases hphase : schedule.final.workers[i] with
  | started =>
    rw [hphase] at hended
    cases hended
  | holding b =>
    rw [hphase] at hended
    cases hended
  | finished =>
    rw [hphase] at hget hfits
    exact .inl ⟨hget, hfits⟩
  | aborted =>
    rw [hphase] at hget hfits
    exact .inr ⟨hget, hfits⟩

theorem Schedule.shared_perm (schedule : Schedule job size) :
    schedule.final.shared.Perm (published job size) := by
  have hinv := schedule.invariant
  refine (perm_ext_iff_of_nodup hinv.nodup.of_map published_nodup).mpr ?_
  rintro ⟨i, b⟩
  rw [hinv.shared_iff, mem_published]
  constructor
  · rintro ⟨hphase, hjob⟩
    refine ⟨?_, hjob⟩
    rw [← schedule.length_workers]
    exact (List.getElem?_eq_some_iff.mp hphase).1
  · rintro ⟨hi, hjob⟩
    refine ⟨?_, hjob⟩
    rcases schedule.ended hi with ⟨hphase, -⟩ | ⟨-, habort⟩
    · exact hphase
    · rw [hjob] at habort
      cases habort

theorem Schedule.anyAborted_iff (schedule : Schedule job size) :
    schedule.final.anyAborted = true ↔ ∃ i < size, job i = .abort := by
  rw [State.anyAborted, any_eq_true]
  constructor
  · rintro ⟨phase, hmem, haborted⟩
    obtain ⟨i, hi⟩ := mem_iff_getElem?.mp hmem
    have hlt := (List.getElem?_eq_some_iff.mp hi).1
    rw [schedule.length_workers] at hlt
    rcases schedule.ended hlt with ⟨hphase, -⟩ | ⟨-, habort⟩
    · rw [hi, Option.some.injEq] at hphase
      rw [hphase] at haborted
      cases haborted
    · exact ⟨i, hlt, habort⟩
  · rintro ⟨i, hi, habort⟩
    rcases schedule.ended hi with ⟨-, hnot⟩ | ⟨hphase, -⟩
    · exact absurd habort hnot
    · exact ⟨.aborted, mem_of_getElem? hphase, rfl⟩

/-! ### Some order always ends -/

def Phase.todo : Phase β → ℕ
  | .started => 2
  | .holding _ => 1
  | .finished | .aborted => 0

def State.todo (s : State β) (size : ℕ) : ℕ :=
  3 * (size - s.workers.length) + (s.workers.map Phase.todo).sum

theorem sum_todo_set {l : List (Phase β)} {old new : Phase β} (h : l[i]? = some old)
    (hlt : new.todo < old.todo) : ((l.set i new).map Phase.todo).sum < (l.map Phase.todo).sum := by
  induction l generalizing i with
  | nil => cases h
  | cons phase rest ih =>
    cases i with
    | zero =>
      cases h
      simpa using hlt
    | succ i => simpa using ih h

theorem exists_event (hle : s.workers.length ≤ size) (h : ¬ s.Joined size) :
    ∃ event, ((pool job size).step event s).2.todo size < s.todo size ∧
      ((pool job size).step event s).2.workers.length ≤ size := by
  by_cases hlt : s.workers.length < size
  · refine ⟨.spawn, ?_⟩
    have hstep : ((pool job size).step .spawn s).2 =
        { s with workers := s.workers ++ [.started] } := if_pos hlt
    rw [hstep, State.todo, State.todo]
    simp only [length_append, length_singleton, map_append, map_cons,
      map_nil, sum_append, sum_singleton, Phase.todo]
    omega
  · have hunended : ¬ ∀ phase ∈ s.workers, phase.ended = true := fun hall =>
      h ⟨by omega, hall⟩
    push Not at hunended
    obtain ⟨phase, hmem, hnot⟩ := hunended
    obtain ⟨i, hi⟩ := mem_iff_getElem?.mp hmem
    refine ⟨.work i, ?_⟩
    change (s.work job i).todo size < _ ∧ (s.work job i).workers.length ≤ size
    cases phase with
    | started =>
      rw [State.work, hi]
      have hdown : (job i).next.todo < (Phase.started : Phase β).todo := by
        cases job i <;> simp [Job.next, Phase.todo]
      have hsum := sum_todo_set hi hdown
      simp only [State.todo, length_set]
      omega
    | holding b =>
      rw [State.work, hi]
      have hdown : (Phase.finished : Phase β).todo < (Phase.holding b).todo := Nat.zero_lt_one
      have hsum := sum_todo_set hi hdown
      simp only [State.todo, length_set]
      omega
    | finished => exact absurd rfl hnot
    | aborted => exact absurd rfl hnot

theorem exists_joined (s : State β) (hle : s.workers.length ≤ size) :
    ∃ events, ((pool job size).run events s).Joined size := by
  by_cases h : s.Joined size
  · exact ⟨[], h⟩
  · obtain ⟨event, hdown, hnext⟩ := @exists_event _ job _ _ hle h
    obtain ⟨events, hevents⟩ := exists_joined _ hnext
    exact ⟨event :: events, hevents⟩
termination_by s.todo size

instance : Nonempty (Schedule job size) := by
  obtain ⟨events, hevents⟩ := @exists_joined _ job _ {} (Nat.zero_le size)
  exact ⟨⟨events, hevents⟩⟩

end WorkerPool
