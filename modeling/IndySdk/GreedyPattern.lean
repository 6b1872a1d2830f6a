import Mathlib.Algebra.GroupWithZero.Nat
import Mathlib.Data.List.Basic
import Mathlib.Tactic.Common

/-!
# Greedy patterns

A pattern is a list of single symbols and of runs of symbols of a class. A run takes as many symbols
as it can while the rest of the pattern still matches. The match that starts first is reported, as
the texts that its runs took.
-/

open List Option

universe u

namespace GreedyPattern

variable {α : Type u}

inductive Piece (α : Type u) where
  | one (d : α)
  | run (isIn : α → Bool)

/-- Take symbols of a class, as many as possible, and go on with the rest. -/
def takeRun (isIn : α → Bool) (rest : List α → Option (List (List α))) :
    List α → Option (List α × List (List α))
  | [] => (rest []).map (fun runs => ([], runs))
  | c :: text =>
    match (if isIn c then takeRun isIn rest text else none) with
    | some (run, runs) => some (c :: run, runs)
    | none => (rest (c :: text)).map (fun runs => ([], runs))

variable {isIn : α → Bool} {rest : List α → Option (List (List α))} {text after run : List α}
  {runs : List (List α)}

theorem takeRun_sound (h : takeRun isIn rest text = some (run, runs)) :
    ∃ after, text = run ++ after ∧ (∀ c ∈ run, isIn c = true) ∧ rest after = some runs := by
  induction text generalizing run with
  | nil =>
    obtain ⟨runs', hrest, he⟩ := map_eq_some_iff.mp h
    cases he
    exact ⟨[], rfl, fun c hc => absurd hc not_mem_nil, hrest⟩
  | cons c text ih =>
    rw [takeRun] at h
    split at h
    · rename_i run' runs' htaken
      cases h
      split_ifs at htaken with hc
      obtain ⟨after, rfl, hall, hrest⟩ := ih htaken
      refine ⟨after, rfl, fun x hx => ?_, hrest⟩
      rcases mem_cons.mp hx with rfl | hx
      · exact hc
      · exact hall x hx
    · obtain ⟨runs', hrest, he⟩ := map_eq_some_iff.mp h
      cases he
      exact ⟨c :: text, rfl, fun c hc => absurd hc not_mem_nil, hrest⟩

theorem exists_takeRun (hall : ∀ c ∈ run, isIn c = true) (hrest : (rest after).isSome) :
    ∃ run' runs, takeRun isIn rest (run ++ after) = some (run', runs) ∧
      run.length ≤ run'.length := by
  induction run with
  | nil =>
    obtain ⟨runs, hruns⟩ := isSome_iff_exists.mp hrest
    cases after with
    | nil =>
      refine ⟨[], runs, ?_, Nat.le_refl 0⟩
      rw [nil_append, takeRun, hruns]
      rfl
    | cons c after =>
      rw [nil_append, takeRun]
      split
      · rename_i run' runs' htaken
        exact ⟨c :: run', runs', rfl, Nat.zero_le _⟩
      · rw [hruns]
        exact ⟨[], runs, rfl, Nat.le_refl 0⟩
  | cons c run ih =>
    obtain ⟨run', runs, htaken, hle⟩ := ih (fun x hx => hall x (mem_cons_of_mem _ hx))
    refine ⟨c :: run', runs, ?_, Nat.succ_le_succ hle⟩
    rw [cons_append, takeRun, if_pos (hall c mem_cons_self), htaken]

theorem takeRun_all (h : ∀ c ∈ text, isIn c = true) (hrest : rest [] = some runs) :
    takeRun isIn rest text = some (text, runs) := by
  induction text with
  | nil =>
    rw [takeRun, hrest]
    rfl
  | cons c text ih =>
    rw [takeRun, if_pos (h c mem_cons_self), ih (fun x hx => h x (mem_cons_of_mem _ hx))]

variable [DecidableEq α]

/-- Match at the start of a text; the text may go on after the match. -/
def matchFrom : List (Piece α) → List α → Option (List (List α))
  | [], _ => some []
  | .one _ :: _, [] => none
  | .one d :: pieces, c :: text => if c = d then matchFrom pieces text else none
  | .run isIn :: pieces, text =>
    (takeRun isIn (matchFrom pieces) text).map (fun taken => taken.1 :: taken.2)

/-- What the runs of the first match take. -/
def captures (pieces : List (Piece α)) : List α → Option (List (List α))
  | [] => matchFrom pieces []
  | c :: text =>
    match matchFrom pieces (c :: text) with
    | some runs => some runs
    | none => captures pieces text

variable {pieces : List (Piece α)} {d : α}

theorem matchFrom_run_sound (h : matchFrom (.run isIn :: pieces) text = some (run :: runs)) :
    ∃ after, text = run ++ after ∧ (∀ c ∈ run, isIn c = true) ∧
      matchFrom pieces after = some runs := by
  obtain ⟨taken, htaken, he⟩ := map_eq_some_iff.mp h
  cases he
  exact takeRun_sound htaken

theorem matchFrom_one_sound (h : matchFrom (.one d :: pieces) text = some runs) :
    ∃ after, text = d :: after ∧ matchFrom pieces after = some runs := by
  cases text with
  | nil => cases h
  | cons c text =>
    rw [matchFrom] at h
    split_ifs at h with hc
    exact ⟨text, by rw [hc], h⟩

theorem matchFrom_one (after : List α) :
    matchFrom (.one d :: pieces) (d :: after) = matchFrom pieces after := by
  rw [matchFrom, if_pos rfl]

theorem exists_matchFrom_run (hall : ∀ c ∈ run, isIn c = true)
    (h : (matchFrom pieces after).isSome) :
    ∃ run' runs, matchFrom (.run isIn :: pieces) (run ++ after) = some (run' :: runs) ∧
      run.length ≤ run'.length := by
  obtain ⟨run', runs, htaken, hle⟩ := exists_takeRun hall h
  refine ⟨run', runs, ?_, hle⟩
  rw [matchFrom, htaken]
  rfl

theorem length_le_of_matchFrom {run' : List α} (hall : ∀ c ∈ run, isIn c = true)
    (h : (matchFrom pieces after).isSome)
    (hmatch : matchFrom (.run isIn :: pieces) (run ++ after) = some (run' :: runs)) :
    run.length ≤ run'.length := by
  obtain ⟨run₁, runs₁, hmatch₁, hle⟩ := exists_matchFrom_run hall h
  rw [hmatch] at hmatch₁
  cases hmatch₁
  exact hle

theorem isSome_matchFrom_run (hall : ∀ c ∈ run, isIn c = true)
    (h : (matchFrom pieces after).isSome) :
    (matchFrom (.run isIn :: pieces) (run ++ after)).isSome := by
  obtain ⟨run', runs, hmatch, -⟩ := exists_matchFrom_run hall h
  rw [hmatch]
  rfl

/-- How often a pattern asks for a symbol. -/
def required (d : α) (pieces : List (Piece α)) : ℕ :=
  (pieces.map (fun piece =>
    match piece with
    | .one c => if c = d then 1 else 0
    | .run _ => 0)).sum

theorem required_le_count (h : (matchFrom pieces text).isSome) :
    required d pieces ≤ text.count d := by
  induction pieces generalizing text with
  | nil => exact Nat.zero_le _
  | cons piece pieces ih =>
    obtain ⟨runs, hruns⟩ := isSome_iff_exists.mp h
    cases piece with
    | one c =>
      obtain ⟨after, rfl, hafter⟩ := matchFrom_one_sound hruns
      have hle := ih (isSome_iff_exists.mpr ⟨runs, hafter⟩)
      have hcount : (c :: after).count d = after.count d + if c = d then 1 else 0 := by
        rw [count_cons]
        simp only [beq_iff_eq]
      have hrequired : required d (.one c :: pieces) =
          (if c = d then 1 else 0) + required d pieces := by
        simp only [required, map_cons, sum_cons]
      omega
    | run isIn =>
      obtain ⟨taken, htaken, -⟩ := map_eq_some_iff.mp hruns
      obtain ⟨after, rfl, -, hafter⟩ := takeRun_sound htaken
      have hle := ih (isSome_iff_exists.mpr ⟨_, hafter⟩)
      have hrequired : required d (.run isIn :: pieces) = required d pieces := by
        simp only [required, map_cons, sum_cons, Nat.zero_add]
      rw [count_append]
      omega

theorem matchFrom_ending (hall : ∀ c ∈ run, isIn c = true)
    (hmatch : matchFrom pieces after = some runs)
    (hlast : ∀ more after', after = more ++ d :: after' → isIn d = true →
      ¬ (matchFrom pieces after').isSome) :
    matchFrom (.run isIn :: .one d :: pieces) (run ++ d :: after) = some (run :: runs) := by
  have hrest : (matchFrom (.one d :: pieces) (d :: after)).isSome := by
    rw [matchFrom_one, hmatch]
    rfl
  obtain ⟨run', runs', hmatch', hle⟩ := exists_matchFrom_run hall hrest
  obtain ⟨after', htext, hall', hafter'⟩ := matchFrom_run_sound hmatch'
  obtain ⟨after'', rfl, hafter''⟩ := matchFrom_one_sound hafter'
  have hsame : run' = run ∧ after'' = after := by
    rcases append_eq_append_iff.mp htext with ⟨more, rfl, hmore⟩ | ⟨more, rfl, hmore⟩
    · cases more with
      | nil =>
        cases hmore
        exact ⟨append_nil run, rfl⟩
      | cons c more =>
        rw [cons_append, List.cons.injEq] at hmore
        obtain ⟨rfl, hmore⟩ := hmore
        have hin : isIn d = true :=
          hall' d (mem_append_right _ mem_cons_self)
        exact absurd (isSome_iff_exists.mpr ⟨runs', hafter''⟩) (hlast more after'' hmore hin)
    · rw [length_append] at hle
      have hnil : more = [] := length_eq_zero_iff.mp (by omega)
      subst hnil
      cases hmore
      exact ⟨(append_nil run').symm, rfl⟩
  obtain ⟨rfl, rfl⟩ := hsame
  rw [hmatch] at hafter''
  cases hafter''
  exact hmatch'

theorem matchFrom_delimited (hall : ∀ c ∈ run, isIn c = true)
    (hmatch : matchFrom pieces after = some runs) (hcount : after.count d ≤ required d pieces) :
    matchFrom (.run isIn :: .one d :: pieces) (run ++ d :: after) = some (run :: runs) := by
  refine matchFrom_ending hall hmatch (fun more after' he _ hsome => ?_)
  have henough : required d pieces ≤ after'.count d := required_le_count hsome
  rw [he, count_append, count_cons_self] at hcount
  omega

theorem matchFrom_excluded (hall : ∀ c ∈ run, isIn c = true)
    (hmatch : matchFrom pieces after = some runs) (hd : isIn d = false) :
    matchFrom (.run isIn :: .one d :: pieces) (run ++ d :: after) = some (run :: runs) :=
  matchFrom_ending hall hmatch (fun _ _ _ hin => absurd hin (ne_true_of_eq_false hd))

theorem matchFrom_all (h : ∀ c ∈ text, isIn c = true) :
    matchFrom [.run isIn] text = some [text] := by
  rw [matchFrom, takeRun_all h rfl]
  rfl

theorem captures_of_matchFrom (h : matchFrom pieces text = some runs) :
    captures pieces text = some runs := by
  cases text with
  | nil => exact h
  | cons c text =>
    rw [captures, h]

theorem exists_of_captures (h : captures pieces text = some runs) :
    ∃ suffix, matchFrom pieces suffix = some runs := by
  induction text with
  | nil => exact ⟨[], h⟩
  | cons c text ih =>
    rw [captures] at h
    split at h
    · rename_i hmatch
      rw [h] at hmatch
      exact ⟨c :: text, hmatch⟩
    · exact ih h

/-! ### All matches -/

section

variable {β : Type u} (matchAt : List α → Option (β × ℕ))

/-- What is matched in a text, each match being looked for after the one before it. `matchAt` gives
a match at the beginning of a text with its length; `skip` is what is left of the last match. -/
def findAll : ℕ → List α → List β
  | _, [] => []
  | skip + 1, _ :: text => findAll skip text
  | 0, c :: text =>
    match matchAt (c :: text) with
    | some (found, consumed) => found :: findAll (consumed - 1) text
    | none => findAll 0 text

variable {matchAt}

omit [DecidableEq α] in
theorem findAll_skip (skip : ℕ) (text : List α) :
    findAll matchAt skip text = findAll matchAt 0 (text.drop skip) := by
  induction text generalizing skip with
  | nil =>
    rw [drop_nil]
    cases skip <;> rfl
  | cons c text ih =>
    cases skip with
    | zero => rw [drop_zero]
    | succ skip => rw [findAll, drop_succ_cons, ih]

omit [DecidableEq α] in
theorem findAll_match {text : List α} {found : β} {consumed : ℕ} (hpos : 0 < consumed)
    (h : matchAt text = some (found, consumed)) (hne : text ≠ []) :
    findAll matchAt 0 text = found :: findAll matchAt 0 (text.drop consumed) := by
  cases text with
  | nil => exact absurd rfl hne
  | cons c text =>
    obtain ⟨k, rfl⟩ := Nat.exists_eq_succ_of_ne_zero (Nat.ne_of_gt hpos)
    rw [findAll, h]
    dsimp only
    rw [Nat.succ_sub_one, findAll_skip, drop_succ_cons]

omit [DecidableEq α] in
theorem exists_of_mem_findAll {skip : ℕ} {text : List α} {found : β}
    (h : found ∈ findAll matchAt skip text) :
    ∃ suffix consumed, matchAt suffix = some (found, consumed) := by
  induction text generalizing skip with
  | nil =>
    rw [findAll] at h
    cases h
  | cons c text ih =>
    cases skip with
    | succ skip => exact ih h
    | zero =>
      rw [findAll] at h
      split at h
      · rename_i found' consumed hmatch
        obtain rfl | h := mem_cons.mp h
        · exact ⟨c :: text, consumed, hmatch⟩
        · exact ih h
      · exact ih h

end

end GreedyPattern
