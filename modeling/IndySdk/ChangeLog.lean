import Mathlib.Data.List.Basic
import Mathlib.Tactic.Common

/-!
# Logs of chained changes

The first change of a log sets a value; each later one names the value that it was made from. A log
in which a change is missing, repeated or out of its place does not accumulate.
-/

structure Change (α β : Type*) where
  before : Option α
  after : α
  note : β

namespace Change

variable {α β : Type*} [DecidableEq α]

/-- Take a change over a value; what changes note is merged. -/
def apply (merge : β → β → β) (current : α × β) (change : Change α β) : Option (α × β) :=
  if change.before = some current.1 then some (change.after, merge current.2 change.note) else none

def accumulate (merge : β → β → β) : List (Change α β) → Option (α × β)
  | [] => none
  | first :: rest =>
    if first.before = none then rest.foldlM (apply merge) (first.after, first.note) else none

variable {merge : β → β → β} {log : List (Change α β)} {current : α × β} {change : Change α β}

theorem accumulate_concat (h : accumulate merge log = some current) :
    accumulate merge (log ++ [change]) = apply merge current change := by
  cases log with
  | nil => cases h
  | cons first rest =>
    rw [accumulate] at h
    split_ifs at h with hfirst
    rw [List.cons_append, accumulate, if_pos hfirst, List.foldlM_append, h]
    simp

theorem accumulate_concat_of_chained (h : accumulate merge log = some current)
    (hbefore : change.before = some current.1) :
    accumulate merge (log ++ [change]) = some (change.after, merge current.2 change.note) := by
  rw [accumulate_concat h, apply, if_pos hbefore]

end Change
