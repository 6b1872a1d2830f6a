import Mathlib.Data.List.DropRight
import Mathlib.Tactic.Common

/-!
# Words of a line with quotes and escapes

A line is cut into words at its spaces, except where a quote is open. A quote that follows an
escape symbol neither opens nor closes: only the single symbol before it is looked at, so that an
escape symbol that is itself escaped still protects the quote after it.

The first word of a line is cut off with the spaces around it; what follows is cut again until
nothing is left. The same words come out of a single pass over the line, since the scanner is back
at its start behind every space where a word ends. A list of words can be recovered from the line
that joins them when no word has a space outside its quotes and every word but the last leaves
its quotes closed.
-/

open List

/-- What the scanner remembers: whether the last symbol was an escape, and whether a quote is
open. -/
@[ext] structure QuoteFlags where
  isQuoteEscape : Bool
  isWhitespaceEscape : Bool
  deriving DecidableEq, Repr

structure QuoteSyntax (α : Type*) where
  quote : α
  escape : α
  isSpace : α → Bool
  quote_not_space : isSpace quote = false
  escape_not_space : isSpace escape = false

namespace QuotedWords

variable {α : Type*} [DecidableEq α] (q : QuoteSyntax α)

def start : QuoteFlags := ⟨false, false⟩

def next (m : QuoteFlags) (c : α) : QuoteFlags where
  isQuoteEscape := decide (c = q.escape)
  isWhitespaceEscape :=
    if m.isQuoteEscape = false ∧ c = q.quote then !m.isWhitespaceEscape
    else m.isWhitespaceEscape

def scan (m : QuoteFlags) (s : List α) : QuoteFlags := s.foldl (next q) m

/-- The text up to the first space outside quotes, and the rest. -/
def takeWord : QuoteFlags → List α → List α × List α
  | _, [] => ([], [])
  | m, c :: s =>
      if q.isSpace c = true ∧ m.isWhitespaceEscape = false then ([], c :: s)
      else (c :: (takeWord (next q m c) s).1, (takeWord (next q m c) s).2)

def trimStart (s : List α) : List α := s.dropWhile q.isSpace

def trim (s : List α) : List α := (trimStart q s).rdropWhile q.isSpace

/-- The first word of a line, and the line after it. -/
def firstWord (s : List α) : List α × List α :=
  ((takeWord q start (trim q s)).1, trimStart q (takeWord q start (trim q s)).2)

@[simp] theorem scan_nil (m : QuoteFlags) : scan q m [] = m := rfl

@[simp] theorem scan_cons (m : QuoteFlags) (c : α) (s : List α) :
    scan q m (c :: s) = scan q (next q m c) s := rfl

@[simp] theorem scan_append (m : QuoteFlags) (s t : List α) :
    scan q m (s ++ t) = scan q (scan q m s) t := foldl_append

theorem takeWord_append (m : QuoteFlags) (s : List α) :
    (takeWord q m s).1 ++ (takeWord q m s).2 = s := by
  induction s generalizing m with
  | nil => rfl
  | cons c s ih =>
      by_cases h : q.isSpace c = true ∧ m.isWhitespaceEscape = false
      · rw [takeWord, if_pos h]
        rfl
      · rw [takeWord, if_neg h]
        exact congrArg (c :: ·) (ih _)

omit [DecidableEq α] in
theorem trim_length_le (s : List α) : (trim q s).length ≤ s.length :=
  ((List.rdropWhile_prefix _ _).length_le).trans (dropWhile_suffix _).length_le

variable {s : List α}

theorem firstWord_length_lt (h : (firstWord q s).1 ≠ []) :
    (firstWord q s).2.length < s.length := by
  have hlen := congrArg List.length (takeWord_append q start (trim q s))
  rw [length_append] at hlen
  have hword : 0 < (firstWord q s).1.length := length_pos_iff.mpr h
  have htail : (firstWord q s).2.length ≤ (takeWord q start (trim q s)).2.length :=
    (dropWhile_suffix _).length_le
  have htrim := trim_length_le q s
  rw [firstWord] at hword
  dsimp only at hword
  omega

/-- The words of a line, cut off one after another. -/
def words (s : List α) : List (List α) :=
  if _h : (firstWord q s).1 = [] then []
  else (firstWord q s).1 :: words (firstWord q s).2
termination_by s.length
decreasing_by exact firstWord_length_lt q _h

theorem words_of_nil (h : (firstWord q s).1 = []) : words q s = [] := by
  rw [words, dif_pos h]

theorem words_of_ne_nil (h : (firstWord q s).1 ≠ []) :
    words q s = (firstWord q s).1 :: words q (firstWord q s).2 := by
  rw [words, dif_neg h]

/-! ## Words that do not fall apart -/

/-- No space of the text stands outside quotes. -/
def Solid : QuoteFlags → List α → Prop
  | _, [] => True
  | m, c :: s => (q.isSpace c = true → m.isWhitespaceEscape = true) ∧ Solid (next q m c) s

variable {m : QuoteFlags} {t : List α}

theorem solid_append :
    Solid q m (s ++ t) ↔ Solid q m s ∧ Solid q (scan q m s) t := by
  induction s generalizing m with
  | nil => exact ⟨fun h => ⟨trivial, h⟩, fun h => h.2⟩
  | cons c s ih => rw [cons_append, Solid, Solid, ih, scan_cons, and_assoc]

theorem scan_plain (hs : ∀ c ∈ s, c ≠ q.quote ∧ c ≠ q.escape) (m : QuoteFlags) (hne : s ≠ []) :
    scan q m s = ⟨false, m.isWhitespaceEscape⟩ := by
  induction s generalizing m with
  | nil => exact absurd rfl hne
  | cons c s ih =>
      have hc := hs c mem_cons_self
      have hnext : next q m c = ⟨false, m.isWhitespaceEscape⟩ := by
        rw [next, if_neg (fun h => hc.1 h.2), decide_eq_false hc.2]
      rw [scan_cons, hnext]
      by_cases hnil : s = []
      · rw [hnil, scan_nil]
      · exact ih (fun d hd => hs d (mem_cons_of_mem _ hd)) _ hnil

theorem solid_of_noSpace (hs : ∀ c ∈ s, q.isSpace c = false) (m : QuoteFlags) :
    Solid q m s := by
  induction s generalizing m with
  | nil => trivial
  | cons c s ih =>
      refine ⟨fun h => ?_, ih (fun d hd => hs d (mem_cons_of_mem _ hd)) _⟩
      rw [hs c mem_cons_self] at h
      cases h

/-! ## One pass over the line -/

/-- The words that end while a text is scanned, the first of them begun with `cur`. -/
def scanWords : QuoteFlags → List α → List α → List (List α)
  | _, cur, [] => if cur = [] then [] else [cur]
  | m, cur, c :: s =>
      if q.isSpace c = true ∧ m.isWhitespaceEscape = false then
        if cur = [] then scanWords start [] s else cur :: scanWords start [] s
      else scanWords (next q m c) (cur ++ [c]) s

theorem scanWords_space {cur : List α} {c : α} (s : List α) (hc : q.isSpace c = true)
    (hm : m.isWhitespaceEscape = false) :
    scanWords q m cur (c :: s) =
      if cur = [] then scanWords q start [] s else cur :: scanWords q start [] s := by
  rw [scanWords, if_pos ⟨hc, hm⟩]

theorem scanWords_takeWord (m : QuoteFlags) (cur s : List α) :
    scanWords q m cur s =
      if cur ++ (takeWord q m s).1 = [] then scanWords q start [] (takeWord q m s).2
      else (cur ++ (takeWord q m s).1) :: scanWords q start [] (takeWord q m s).2 := by
  induction s generalizing m cur with
  | nil =>
      rw [takeWord, append_nil, scanWords]
      rfl
  | cons c s ih =>
      by_cases h : q.isSpace c = true ∧ m.isWhitespaceEscape = false
      · have hskip : scanWords q start [] (c :: s) = scanWords q start [] s := by
          rw [scanWords_space q s h.1 rfl, if_pos rfl]
        rw [takeWord, if_pos h, scanWords_space q s h.1 h.2, append_nil, hskip]
      · rw [takeWord, if_neg h, scanWords, if_neg h, ih, append_assoc,
          singleton_append]

theorem scanWords_trimStart (s : List α) :
    scanWords q start [] (trimStart q s) = scanWords q start [] s := by
  induction s with
  | nil => rfl
  | cons c s ih =>
      by_cases h : q.isSpace c = true
      · rw [scanWords_space q s h rfl, if_pos rfl, ← ih, trimStart,
          dropWhile_cons_of_pos h]
        rfl
      · rw [trimStart, dropWhile_cons_of_neg h]

/-- No space stands at the end of the text. -/
def TrimmedEnd (s : List α) : Prop := ∀ t c, s = t ++ [c] → q.isSpace c = false

omit [DecidableEq α] in
theorem TrimmedEnd.of_suffix (h : TrimmedEnd q s) (ht : t <:+ s) :
    TrimmedEnd q t := by
  obtain ⟨r, rfl⟩ := ht
  intro u c hu
  exact h (r ++ u) c (by rw [hu, append_assoc])

omit [DecidableEq α] in
theorem TrimmedEnd.append (ht : TrimmedEnd q t) (hne : t ≠ []) (s : List α) :
    TrimmedEnd q (s ++ t) := by
  obtain ⟨u, d, rfl⟩ := (eq_nil_or_concat' t).resolve_left hne
  intro v c hv
  rw [← append_assoc] at hv
  have hlast : [d] = [c] := (append_inj' hv rfl).2
  cases hlast
  exact ht u d rfl

omit [DecidableEq α] in
theorem TrimmedEnd.trim {s : List α} (h : TrimmedEnd q s) : trim q s = trimStart q s := by
  have hstart := h.of_suffix q (t := trimStart q s) (dropWhile_suffix _)
  rw [QuotedWords.trim]
  obtain hnil | ⟨t, c, ht⟩ := eq_nil_or_concat' (trimStart q s)
  · rw [hnil, rdropWhile_nil]
  · rw [ht]
    exact rdropWhile_concat_neg _ _ _ (by rw [hstart t c ht]; exact Bool.false_ne_true)

omit [DecidableEq α] in
theorem trimStart_cons {c : α} (h : trimStart q s = c :: t) :
    q.isSpace c = false := by
  induction s with
  | nil => cases h
  | cons d s ih =>
      by_cases hd : q.isSpace d = true
      · rw [trimStart, dropWhile_cons_of_pos hd] at h
        exact ih h
      · rw [trimStart, dropWhile_cons_of_neg hd] at h
        cases h
        exact Bool.eq_false_iff.mpr hd

theorem words_eq_scanWords (hs : TrimmedEnd q s) :
    words q s = scanWords q start [] s := by
  induction s using words.induct q with
  | case1 s h =>
      rw [words_of_nil q h, ← scanWords_trimStart]
      rw [firstWord, hs.trim] at h
      cases ht : trimStart q s with
      | nil => rfl
      | cons c t =>
          have hgo : ¬ (q.isSpace c = true ∧ start.isWhitespaceEscape = false) := by
            rw [trimStart_cons q ht]
            exact fun hc => Bool.false_ne_true hc.1
          rw [ht, takeWord, if_neg hgo] at h
          cases h
  | case2 s h ih =>
      have hsuffix : (firstWord q s).2 <:+ s := by
        have happ := takeWord_append q start (trim q s)
        rw [hs.trim] at happ
        rw [firstWord, hs.trim]
        exact (dropWhile_suffix _).trans
          ((happ ▸ suffix_append _ _).trans (dropWhile_suffix _))
      have hscan := scanWords_takeWord q start [] (trimStart q s)
      rw [words_of_ne_nil q h, ih (hs.of_suffix q hsuffix), ← scanWords_trimStart q s]
      rw [firstWord, hs.trim] at h ⊢
      rw [nil_append, if_neg h] at hscan
      rw [scanWords_trimStart, hscan]

variable {u : List α}

theorem scanWords_of_solid (hu : Solid q m u) (cur t : List α) :
    scanWords q m cur (u ++ t) = scanWords q (scan q m u) (cur ++ u) t := by
  induction u generalizing m cur with
  | nil => rw [nil_append, append_nil, scan_nil]
  | cons c u ih =>
      have hc : ¬ (q.isSpace c = true ∧ m.isWhitespaceEscape = false) := by
        rintro ⟨hspace, hopen⟩
        rw [hu.1 hspace] at hopen
        cases hopen
      rw [cons_append, scanWords, if_neg hc, ih hu.2, append_assoc, scan_cons]
      rfl

theorem scanWords_cons {cur : List α} (hcur : cur ≠ []) (m : QuoteFlags) (s : List α) :
    ∃ x tail, scanWords q m cur s = (cur ++ x) :: tail := by
  refine ⟨(takeWord q m s).1, scanWords q start [] (takeWord q m s).2, ?_⟩
  rw [scanWords_takeWord, if_neg (append_ne_nil_of_left_ne_nil hcur _)]

theorem next_space {c : α} (hc : q.isSpace c = true) (hm : m.isWhitespaceEscape = false) :
    next q m c = start := by
  have hquote : c ≠ q.quote := by
    rintro rfl
    exact Bool.false_ne_true (q.quote_not_space.symm.trans hc)
  have hescape : c ≠ q.escape := by
    rintro rfl
    exact Bool.false_ne_true (q.escape_not_space.symm.trans hc)
  rw [next, if_neg fun h => hquote h.2, decide_eq_false hescape, hm]
  rfl

/-- Behind a space outside quotes the words are those of the text that follows it; what begins a
word before it is a word of its own. -/
theorem scanWords_append {m : QuoteFlags} {cur s : List α} {c : α} (t : List α)
    (hc : q.isSpace c = true) (hm : (scan q m s).isWhitespaceEscape = false) :
    ∃ ws, scanWords q m cur (s ++ c :: t) = ws ++ scanWords q start [] t ∧
      (cur ≠ [] → ws ≠ []) := by
  induction s generalizing m cur with
  | nil =>
      rw [scan_nil] at hm
      rw [nil_append, scanWords_space q t hc hm]
      by_cases hcur : cur = []
      · exact ⟨[], by rw [if_pos hcur, nil_append], fun h => absurd hcur h⟩
      · exact ⟨[cur], by rw [if_neg hcur, singleton_append], fun _ => cons_ne_nil _ _⟩
  | cons d s ih =>
      rw [scan_cons] at hm
      by_cases hd : q.isSpace d = true ∧ m.isWhitespaceEscape = false
      · rw [next_space q hd.1 hd.2] at hm
        obtain ⟨ws, hws, _⟩ := @ih _ [] hm
        rw [cons_append, scanWords_space q _ hd.1 hd.2, hws]
        by_cases hcur : cur = []
        · exact ⟨ws, if_pos hcur, fun h => absurd hcur h⟩
        · exact ⟨cur :: ws, by rw [if_neg hcur, cons_append], fun _ => cons_ne_nil _ _⟩
      · obtain ⟨ws, hws, hne⟩ := @ih _ (cur ++ [d]) hm
        rw [cons_append, scanWords, if_neg hd, hws]
        exact ⟨ws, rfl, fun _ => hne (append_ne_nil_of_right_ne_nil _ (cons_ne_nil _ _))⟩

/-! ## Lines that join words -/

/-- The words one after another with a space between each two. -/
def join (space : α) : List (List α) → List α
  | [] => []
  | [u] => u
  | u :: v :: us => u ++ space :: join space (v :: us)

variable {space : α} (hspace : q.isSpace space = true) {us : List (List α)}

omit [DecidableEq α] in
theorem join_cons (h : us ≠ []) :
    join space (u :: us) = u ++ space :: join space us := by
  cases us with
  | nil => exact absurd rfl h
  | cons v us => rfl

omit [DecidableEq α] in
theorem join_append {vs : List (List α)} (hu : us ≠ []) (hv : vs ≠ []) :
    join space (us ++ vs) = join space us ++ space :: join space vs := by
  induction us with
  | nil => exact absurd rfl hu
  | cons u us ih =>
      by_cases hnil : us = []
      · rw [hnil]
        exact join_cons hv
      · rw [cons_append, join_cons (append_ne_nil_of_left_ne_nil hnil vs),
          join_cons hnil, ih hnil, append_assoc, cons_append]

omit [DecidableEq α] in
theorem join_ne_nil (hne : us ≠ []) (h : ∀ u ∈ us, u ≠ []) :
    join space us ≠ [] := by
  cases us with
  | nil => exact absurd rfl hne
  | cons u us =>
      by_cases hnil : us = []
      · rw [hnil]
        exact h u mem_cons_self
      · rw [join_cons hnil]
        exact append_ne_nil_of_left_ne_nil (h u mem_cons_self) _

omit [DecidableEq α] in
theorem trimmedEnd_join (h : ∀ u ∈ us, u ≠ [] ∧ TrimmedEnd q u) :
    TrimmedEnd q (join space us) := by
  induction us with
  | nil =>
      intro t c ht
      exact absurd ht.symm (append_ne_nil_of_right_ne_nil _ (cons_ne_nil _ _))
  | cons u us ih =>
      by_cases hnil : us = []
      · rw [hnil]
        exact (h u mem_cons_self).2
      · have htail : ∀ v ∈ us, v ≠ [] ∧ TrimmedEnd q v :=
          fun v hv => h v (mem_cons_of_mem _ hv)
        rw [join_cons hnil, ← singleton_append, ← append_assoc]
        exact (ih htail).append q (join_ne_nil hnil fun v hv => (htail v hv).1) _

include hspace

theorem scanWords_closed (hne : u ≠ []) (hs : Solid q start u)
    (hc : (scan q start u).isWhitespaceEscape = false) (t : List α) :
    scanWords q start [] (u ++ space :: t) = u :: scanWords q start [] t := by
  rw [scanWords_of_solid q hs, scanWords_space q t hspace hc, nil_append, if_neg hne]

/-- A line that joins solid words, all closed, is cut into these words; the last word need not
be closed. -/
theorem scanWords_join (hs : ∀ u ∈ us, u ≠ [] ∧ Solid q start u)
    (hc : ∀ u ∈ us.dropLast, (scan q start u).isWhitespaceEscape = false) :
    scanWords q start [] (join space us) = us := by
  induction us with
  | nil => rfl
  | cons u us ih =>
      obtain ⟨hne, hsolid⟩ := hs u mem_cons_self
      have htail : ∀ v ∈ us, v ≠ [] ∧ Solid q start v :=
        fun v hv => hs v (mem_cons_of_mem _ hv)
      by_cases hnil : us = []
      · have hlast := scanWords_of_solid q hsolid [] []
        rw [append_nil, nil_append, scanWords, if_neg hne] at hlast
        rw [hnil]
        exact hlast
      · rw [dropLast_cons_of_ne_nil hnil] at hc
        rw [join_cons hnil, scanWords_closed q hspace hne hsolid (hc u mem_cons_self),
          ih htail fun v hv => hc v (mem_cons_of_mem _ hv)]

omit hspace in
theorem scanWords_open (hs : Solid q start u) (ho : (scan q start u).isWhitespaceEscape = true)
    (t : List α) :
    ∃ more tail, scanWords q start [] (u ++ space :: t) = (u ++ space :: more) :: tail := by
  have hpast : ¬ (q.isSpace space = true ∧ (scan q start u).isWhitespaceEscape = false) := by
    rw [ho]
    exact fun h => Bool.false_ne_true h.2.symm
  rw [scanWords_of_solid q hs, scanWords, if_neg hpast, nil_append]
  obtain ⟨x, tail, hx⟩ := scanWords_cons q
    (append_ne_nil_of_right_ne_nil u (cons_ne_nil space []))
    (next q (scan q start u) space) t
  exact ⟨x, tail, by rw [hx, append_assoc, singleton_append]⟩

/-- The first word that leaves a quote open swallows the space after it and more; the words
before it are cut off as they were joined. -/
theorem scanWords_join_open {vs : List (List α)} (hne : vs ≠ [])
    (hs : ∀ w ∈ us ++ u :: vs, w ≠ [] ∧ Solid q start w)
    (hc : ∀ w ∈ us, (scan q start w).isWhitespaceEscape = false)
    (ho : (scan q start u).isWhitespaceEscape = true) :
    ∃ more tail, scanWords q start [] (join space (us ++ u :: vs)) =
      us ++ (u ++ space :: more) :: tail := by
  induction us with
  | nil =>
      rw [nil_append, join_cons hne]
      exact scanWords_open q (hs u mem_cons_self).2 ho _
  | cons w us ih =>
      rw [cons_append] at hs
      obtain ⟨hw, hsolid⟩ := hs w mem_cons_self
      obtain ⟨more, tail, hcut⟩ := ih (fun v hv => hs v (mem_cons_of_mem _ hv))
        fun v hv => hc v (mem_cons_of_mem _ hv)
      refine ⟨more, tail, ?_⟩
      rw [cons_append, join_cons (append_ne_nil_of_right_ne_nil _ (cons_ne_nil _ _)),
        scanWords_closed q hspace hw hsolid (hc w mem_cons_self), hcut, cons_append]

end QuotedWords
