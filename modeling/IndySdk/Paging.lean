import IndySdk.Outcome

/-!
# Paging through a selection

A cursor runs over records, each of which yields an item, is passed over or fails. One call takes
items until it has enough; the records after it are left for the next call. Whatever rule says when
a call has enough, the pages make up the selection.
-/

namespace IndySdk.Paging

open Outcome

variable {ρ α ε : Type*} (select : ρ → Outcome ε (Option α)) (enough : ℕ → Bool)

/-- One page and the records that are left; `enough` is asked after each item. -/
def fetch : ℕ → List ρ → Outcome ε (List α) × List ρ
  | _, [] => (.ok [], [])
  | taken, r :: rest =>
    match select r with
    | .err e => (.err e, rest)
    | .panic => (.panic, rest)
    | .ok none => fetch taken rest
    | .ok (some a) =>
      if enough (taken + 1) then (.ok [a], rest)
      else
        let (page, rest) := fetch (taken + 1) rest
        ((fun page => a :: page) <$> page, rest)

/-- The whole selection. -/
def collect : List ρ → Outcome ε (List α)
  | [] => .ok []
  | r :: rest =>
    match select r with
    | .err e => .err e
    | .panic => .panic
    | .ok none => collect rest
    | .ok (some a) => (fun page => a :: page) <$> collect rest

variable {select enough} {rs : List ρ}

theorem fetch_never (taken : ℕ) (rs : List ρ) :
    (fetch select (fun _ => false) taken rs).1 = collect select rs := by
  induction rs generalizing taken with
  | nil => rfl
  | cons r rest ih =>
    rw [fetch, collect]
    cases select r with
    | err e => rfl
    | panic => rfl
    | ok selected =>
      cases selected with
      | none => exact ih taken
      | some a =>
        dsimp only
        rw [if_neg Bool.false_ne_true, ← ih (taken + 1)]

theorem fetch_never_rest (taken : ℕ) {rs : List ρ} {all : List α}
    (h : collect select rs = .ok all) : (fetch select (fun _ => false) taken rs).2 = [] := by
  induction rs generalizing taken all with
  | nil => rfl
  | cons r rest ih =>
    rw [fetch]
    rw [collect] at h
    cases hselect : select r with
    | err e =>
      rw [hselect] at h
      cases h
    | panic =>
      rw [hselect] at h
      cases h
    | ok selected =>
      rw [hselect] at h
      cases selected with
      | none => exact ih taken h
      | some a =>
        obtain ⟨all', hall', -⟩ := map_eq_ok_iff.mp h
        exact ih (taken + 1) hall'

theorem fetch_collect {all : List α} (taken : ℕ) (h : collect select rs = .ok all) :
    ∃ page rest, (fetch select enough taken rs).1 = .ok page ∧
      collect select (fetch select enough taken rs).2 = .ok rest ∧ all = page ++ rest := by
  induction rs generalizing taken all with
  | nil =>
    cases h
    exact ⟨[], [], rfl, rfl, rfl⟩
  | cons r rs ih =>
    rw [fetch]
    rw [collect] at h
    cases hselect : select r with
    | err e =>
      rw [hselect] at h
      cases h
    | panic =>
      rw [hselect] at h
      cases h
    | ok selected =>
      rw [hselect] at h
      cases selected with
      | none => exact ih taken h
      | some a =>
        obtain ⟨all', hall', rfl⟩ := map_eq_ok_iff.mp h
        dsimp only
        by_cases henough : enough (taken + 1) = true
        · rw [if_pos henough]
          exact ⟨[a], all', rfl, hall', rfl⟩
        · rw [if_neg henough]
          obtain ⟨page, rest, hpage, hrest, rfl⟩ := ih (taken + 1) hall'
          exact ⟨a :: page, rest, by rw [hpage]; rfl, hrest, rfl⟩

theorem fetch_nil {taken : ℕ} (h : (fetch select enough taken rs).1 = .ok []) :
    (fetch select enough taken rs).2 = [] := by
  induction rs generalizing taken with
  | nil => rfl
  | cons r rs ih =>
    rw [fetch] at h ⊢
    cases hselect : select r with
    | err e =>
      rw [hselect] at h
      cases h
    | panic =>
      rw [hselect] at h
      cases h
    | ok selected =>
      rw [hselect] at h
      cases selected with
      | none => exact ih h
      | some a =>
        dsimp only at h
        split_ifs at h with henough
        · cases h
        · obtain ⟨page, -, hpage⟩ := map_eq_ok_iff.mp h
          cases hpage

/-- The item that a record yields, if it does not fail. -/
def item (select : ρ → Outcome ε (Option α)) (r : ρ) : Option α :=
  match select r with
  | .ok selected => selected
  | .err _ | .panic => none

theorem collect_eq_ok {all : List α} :
    collect select rs = .ok all ↔
      (∀ r ∈ rs, select r = .ok (item select r)) ∧ all = rs.filterMap (item select) := by
  induction rs generalizing all with
  | nil =>
    constructor
    · rintro ⟨⟩
      exact ⟨fun _ h => absurd h List.not_mem_nil, rfl⟩
    · rintro ⟨-, rfl⟩
      rfl
  | cons r rs ih =>
    rw [collect, List.forall_mem_cons]
    cases hselect : select r with
    | err e =>
      constructor
      · exact fun h => absurd h (err_ne_ok e all)
      · exact fun h => absurd h.1.1 (err_ne_ok e _)
    | panic =>
      constructor
      · exact fun h => absurd h (panic_ne_ok all)
      · exact fun h => absurd h.1.1 (panic_ne_ok _)
    | ok selected =>
      have hitem : item select r = selected := by rw [item, hselect]
      rw [List.filterMap_cons, hitem]
      cases selected with
      | none =>
        dsimp only
        rw [ih]
        exact ⟨fun h => ⟨⟨rfl, h.1⟩, h.2⟩, fun h => ⟨h.1.2, h.2⟩⟩
      | some a =>
        dsimp only
        rw [map_eq_ok_iff]
        constructor
        · rintro ⟨all', hall', rfl⟩
          obtain ⟨hrest, rfl⟩ := ih.mp hall'
          exact ⟨⟨rfl, hrest⟩, rfl⟩
        · rintro ⟨⟨-, hrest⟩, rfl⟩
          exact ⟨_, ih.mpr ⟨hrest, rfl⟩, rfl⟩

theorem collect_congr {select' : ρ → Outcome ε (Option α)} (h : ∀ r ∈ rs, select' r = select r) :
    collect select' rs = collect select rs := by
  induction rs with
  | nil => rfl
  | cons r rs ih =>
    rw [collect, collect, h r List.mem_cons_self,
      ih (fun r' hr' => h r' (List.mem_cons_of_mem r hr'))]

/-! ### Runs of records -/

/-- The records up to the one that yields the last item of a given number. -/
def upTo (yields : ρ → Option α) : ℕ → List ρ → List ρ
  | 0, _ => []
  | _ + 1, [] => []
  | n + 1, r :: rest =>
    r :: match yields r with
      | some _ => upTo yields n rest
      | none => upTo yields (n + 1) rest

variable {yields : ρ → Option α}

theorem upTo_nil (n : ℕ) : upTo yields n [] = [] := by
  cases n with
  | zero => rfl
  | succ n => rfl

theorem upTo_some {n : ℕ} {r : ρ} {rest : List ρ} {a : α} (h : yields r = some a) :
    upTo yields (n + 1) (r :: rest) = r :: upTo yields n rest := by
  rw [upTo, h]

theorem upTo_none {n : ℕ} {r : ρ} {rest : List ρ} (h : yields r = none) :
    upTo yields (n + 1) (r :: rest) = r :: upTo yields (n + 1) rest := by
  rw [upTo, h]

end IndySdk.Paging
