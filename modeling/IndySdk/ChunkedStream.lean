import Mathlib.Algebra.Order.Group.Nat
import Mathlib.Data.List.Flatten
import Mathlib.Logic.Function.Iterate
import Mathlib.Tactic.Common

/-!
# Streams sealed chunk by chunk

A stream is cut into chunks of one length, only the last of which may be shorter, and each chunk is
sealed under the next of a sequence of nonces. The last chunk is full exactly when the length of the
stream is a multiple of the length of a chunk.
-/

open List

namespace ChunkedStream

variable {α β ν : Type*}

/-- Chunks of a length, of which only the last may be shorter; none is empty. -/
inductive Cut (n : ℕ) : List (List α) → Prop where
  | nil : Cut n []
  | last {chunk : List α} (hne : chunk ≠ []) (hle : chunk.length ≤ n) : Cut n [chunk]
  | cons {chunk : List α} {chunks : List (List α)} (hne : chunk ≠ []) (hfull : chunk.length = n)
    (hrest : Cut n chunks) : Cut n (chunk :: chunks)

def Full (n : ℕ) (chunks : List (List α)) : Prop := ∀ chunk ∈ chunks, chunk.length = n

/-- The chunks sealed one after the other. -/
def sealAll (sealing : ν → List α → List β) (next : ν → ν) : ν → List (List α) → List β
  | _, [] => []
  | nonce, chunk :: chunks => sealing nonce chunk ++ sealAll sealing next (next nonce) chunks

variable {n : ℕ} {chunk : List α} {chunks : List (List α)}

theorem Cut.head_ne_nil (h : Cut n (chunk :: chunks)) : chunk ≠ [] := by
  cases h with
  | last hne _ => exact hne
  | cons hne _ _ => exact hne

theorem Cut.head_le (h : Cut n (chunk :: chunks)) : chunk.length ≤ n := by
  cases h with
  | last _ hle => exact hle
  | cons _ hfull _ => exact hfull.le

theorem Cut.tail (h : Cut n (chunk :: chunks)) : Cut n chunks := by
  cases h with
  | last _ _ => exact .nil
  | cons _ _ hrest => exact hrest

theorem Cut.full_or_last (h : Cut n (chunk :: chunks)) : chunk.length = n ∨ chunks = [] := by
  cases h with
  | last _ _ => exact .inr rfl
  | cons _ hfull _ => exact .inl hfull

theorem Cut.ne_nil (h : Cut n chunks) : ∀ chunk ∈ chunks, chunk ≠ [] := by
  induction chunks with
  | nil =>
    intro chunk hmem
    cases hmem
  | cons first chunks ih =>
    intro chunk hmem
    obtain rfl | hmem := mem_cons.mp hmem
    · exact h.head_ne_nil
    · exact ih h.tail chunk hmem

theorem Cut.drop (h : Cut n chunks) (i : ℕ) : Cut n (chunks.drop i) := by
  induction i generalizing chunks with
  | zero => exact h
  | succ i ih =>
    cases chunks with
    | nil => exact .nil
    | cons chunk chunks => exact ih h.tail

theorem Cut.take (h : Cut n chunks) (i : ℕ) : Cut n (chunks.take i) := by
  induction h generalizing i with
  | nil =>
    rw [take_nil]
    exact .nil
  | @last chunk hne hle =>
    cases i with
    | zero => exact .nil
    | succ i =>
      rw [take_succ_cons, take_nil]
      exact .last hne hle
  | @cons chunk chunks hne hfull hrest ih =>
    cases i with
    | zero => exact .nil
    | succ i => exact .cons hne hfull (ih i)

theorem Cut.full_take (h : Cut n chunks) {i : ℕ} (hi : i < chunks.length) :
    Full n (chunks.take i) := by
  induction h generalizing i with
  | nil => cases hi
  | @last chunk hne hle =>
    obtain rfl : i = 0 := Nat.lt_one_iff.mp hi
    intro c hc
    cases hc
  | @cons chunk chunks hne hfull hrest ih =>
    cases i with
    | zero =>
      intro c hc
      cases hc
    | succ i =>
      intro c hc
      obtain rfl | hc := mem_cons.mp hc
      · exact hfull
      · exact ih (Nat.lt_of_succ_lt_succ hi) c hc

theorem Cut.getElem?_of_lt (h : Cut n chunks) {j : ℕ} (hj : n * j < chunks.flatten.length) :
    chunks[j]? = some ((chunks.flatten.drop (n * j)).take n) := by
  induction h generalizing j with
  | nil => cases hj
  | @last chunk hne hle =>
    rw [flatten_cons, flatten_nil, append_nil] at hj ⊢
    cases j with
    | zero => rw [Nat.mul_zero, drop_zero, take_of_length_le hle]; rfl
    | succ j =>
      have hmul : n * (j + 1) = n * j + n := Nat.mul_succ n j
      omega
  | @cons chunk chunks hne hfull hrest ih =>
    rw [flatten_cons] at hj ⊢
    cases j with
    | zero => rw [Nat.mul_zero, drop_zero, take_left' hfull]; rfl
    | succ j =>
      have hmul : n * (j + 1) = chunk.length + n * j := by rw [hfull, Nat.mul_succ, add_comm]
      rw [length_append, hmul] at hj
      rw [hmul, drop_append, drop_of_length_le (Nat.le_add_right _ _), nil_append,
        Nat.add_sub_cancel_left, getElem?_cons_succ]
      exact ih (Nat.lt_of_add_lt_add_left hj)

theorem Cut.of_full (hn : 0 < n) (h : Full n chunks) : Cut n chunks := by
  induction chunks with
  | nil => exact .nil
  | cons chunk chunks ih =>
    have hfull := h chunk mem_cons_self
    refine .cons ?_ hfull (ih (fun c hc => h c (mem_cons_of_mem _ hc)))
    rintro rfl
    exact hn.ne hfull

theorem Cut.of_full_append (hn : 0 < n) (h : Full n chunks) {last : List α} (hne : last ≠ [])
    (hle : last.length ≤ n) : Cut n (chunks ++ [last]) := by
  induction chunks with
  | nil => exact .last hne hle
  | cons chunk chunks ih =>
    have hfull := h chunk mem_cons_self
    refine .cons ?_ hfull (ih (fun c hc => h c (mem_cons_of_mem _ hc)))
    rintro rfl
    exact hn.ne hfull

theorem Full.length_flatten (h : Full n chunks) : chunks.flatten.length = n * chunks.length := by
  induction chunks with
  | nil => simp
  | cons chunk chunks ih =>
    rw [flatten_cons, length_append, h chunk mem_cons_self,
      ih (fun c hc => h c (mem_cons_of_mem _ hc)), length_cons, Nat.mul_succ, add_comm]

theorem Cut.length_flatten_lt (h : Cut n chunks) (hshort : ¬ Full n chunks) :
    chunks.flatten.length < n * chunks.length := by
  induction h with
  | nil =>
    refine absurd ?_ hshort
    intro chunk hmem
    cases hmem
  | @last chunk hne hle =>
    rw [flatten_cons, flatten_nil, append_nil, length_singleton, Nat.mul_one]
    refine lt_of_le_of_ne hle ?_
    intro hfull
    refine hshort ?_
    intro chunk' hmem
    rw [mem_singleton.mp hmem]
    exact hfull
  | @cons chunk chunks hne hfull hrest ih =>
    have hrest : ¬ Full n chunks := by
      intro hall
      refine hshort ?_
      intro chunk' hmem
      obtain rfl | hmem := mem_cons.mp hmem
      · exact hfull
      · exact hall chunk' hmem
    have hlt := ih hrest
    rw [flatten_cons, length_append, length_cons, Nat.mul_succ, hfull]
    omega

theorem Cut.length_take_succ (h : Cut n chunks) {j : ℕ} (hj : chunks[j]? = some chunk) :
    (chunks.take (j + 1)).flatten.length = n * j + chunk.length ∧ 0 < chunk.length ∧
      chunk.length ≤ n := by
  obtain ⟨hlt, rfl⟩ := List.getElem?_eq_some_iff.mp hj
  have hcount : (chunks.take j).length = j := length_take_of_le hlt.le
  refine ⟨?_, ?_, ?_⟩
  · rw [take_succ_eq_append_getElem hlt, flatten_append, length_append,
      (h.full_take hlt).length_flatten, hcount, flatten_singleton]
  · exact length_pos_iff.mpr (h.ne_nil _ (getElem_mem hlt))
  · have hdrop := h.drop j
    rw [drop_eq_getElem_cons hlt] at hdrop
    exact hdrop.head_le

theorem Cut.length_eq (hn : 0 < n) (h : Cut n chunks) :
    (chunks.flatten.length + (n - 1)) / n = chunks.length := by
  cases hlength : chunks.length with
  | zero =>
    rw [length_eq_zero_iff.mp hlength]
    exact Nat.div_eq_of_lt (by rw [flatten_nil, length_nil]; omega)
  | succ j =>
    have hlast : j < chunks.length := hlength ▸ Nat.lt_succ_self j
    obtain ⟨htotal, hpos, hle⟩ := h.length_take_succ (getElem?_eq_getElem hlast)
    rw [← hlength, take_length] at htotal
    rw [htotal, Nat.div_eq_iff (by omega), Nat.mul_comm (j + 1) n, Nat.mul_succ]
    omega

variable {sealing : ν → List α → List β} {next : ν → ν}

theorem sealAll_append (nonce : ν) (first second : List (List α)) :
    sealAll sealing next nonce (first ++ second) =
      sealAll sealing next nonce first ++
        sealAll sealing next (next^[first.length] nonce) second := by
  induction first generalizing nonce with
  | nil => rfl
  | cons chunk first ih =>
    rw [cons_append, sealAll, ih, sealAll, append_assoc, length_cons,
      Function.iterate_succ_apply]

theorem length_sealAll {t : ℕ}
    (hlength : ∀ nonce data, (sealing nonce data).length = data.length + t)
    (nonce : ν) (chunks : List (List α)) :
    (sealAll sealing next nonce chunks).length = chunks.flatten.length + t * chunks.length := by
  induction chunks generalizing nonce with
  | nil => rfl
  | cons chunk chunks ih =>
    rw [sealAll, length_append, hlength, ih, flatten_cons, length_append,
      length_cons, Nat.mul_succ]
    omega

theorem Cut.take_sealAll {t : ℕ}
    (hlength : ∀ nonce data, (sealing nonce data).length = data.length + t) (h : Cut n chunks)
    (nonce : ν) {i : ℕ} (hi : i ≤ chunks.length) :
    (sealAll sealing next nonce chunks).take (i * (n + t)) =
        sealAll sealing next nonce (chunks.take i) ∧
      (i * (n + t) ≤ (sealAll sealing next nonce chunks).length ↔ Full n (chunks.take i)) := by
  have hsplit : sealAll sealing next nonce chunks = sealAll sealing next nonce (chunks.take i) ++
      sealAll sealing next (next^[(chunks.take i).length] nonce) (chunks.drop i) := by
    rw [← sealAll_append, take_append_drop]
  have hcount : (chunks.take i).length = i := length_take_of_le hi
  have hpart : (sealAll sealing next nonce (chunks.take i)).length =
      (chunks.take i).flatten.length + t * (chunks.take i).length :=
    length_sealAll hlength nonce (chunks.take i)
  rw [hcount] at hpart
  have hmul : i * (n + t) = n * i + t * i := by rw [Nat.mul_add, Nat.mul_comm, Nat.mul_comm i t]
  by_cases hfull : Full n (chunks.take i)
  · have hsize : (sealAll sealing next nonce (chunks.take i)).length = i * (n + t) := by
      rw [hpart, hfull.length_flatten, hcount, hmul]
    constructor
    · rw [hsplit, take_left' hsize]
    · rw [hsplit, length_append, hsize]
      exact iff_of_true (Nat.le_add_right _ _) hfull
  · have hall : chunks.take i = chunks := by
      obtain hlt | rfl := hi.lt_or_eq
      · exact absurd (h.full_take hlt) hfull
      · exact take_length
    rw [hall] at hfull hpart ⊢
    have hless : chunks.flatten.length < n * i := by
      rw [← hcount, hall]
      exact h.length_flatten_lt hfull
    constructor
    · exact take_of_length_le (by omega)
    · exact iff_of_false (by omega) hfull

theorem sealAll_take_succ (nonce : ν) {i : ℕ} (h : chunks[i]? = some chunk) :
    sealAll sealing next nonce (chunks.take (i + 1)) =
      sealAll sealing next nonce (chunks.take i) ++ sealing (next^[i] nonce) chunk := by
  obtain ⟨hi, rfl⟩ := List.getElem?_eq_some_iff.mp h
  rw [take_succ_eq_append_getElem hi, sealAll_append, length_take, min_eq_left hi.le]
  exact congrArg _ (append_nil _)

end ChunkedStream
