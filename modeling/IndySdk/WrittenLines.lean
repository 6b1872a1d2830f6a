import IndySdk.CommandEscaping

/-!
# Parameters written on a line and read back

A command is given a value for each of some of its parameters, and for its main parameter if it
has one. The line is written value by value and parsed again. The parser returns the same values
exactly when the main parameter is written first and without its name and no value but the last
ends in a backslash; otherwise some parameter comes back with another value, or the line is
rejected.
-/

namespace IndySdk.Cli

open QuotedWords List

/-- Values for the parameters of a command, in the order in which they are written: those before
the main parameter, the main parameter, and those after it. -/
structure Assignment (command : CommandMetadata) where
  before : List (Text × Text)
  mainValue : Option Text
  after : List (Text × Text)
  main_given : mainValue.isSome = command.mainParam.isSome
  known : ∀ e ∈ before ++ after, ∃ p ∈ command.params, p.name = e.1
  once : ((before ++ after).map Prod.fst).Nodup
  apart : ∀ p ∈ command.mainParam, p.name ∉ (before ++ after).map Prod.fst

namespace Assignment

variable {command : CommandMetadata} (a : Assignment command)

def entries : List (Text × Text) := a.before ++ a.after

/-- The values as they stand on the line. -/
def values : List Text :=
  a.before.map Prod.snd ++ (a.mainValue.toList ++ a.after.map Prod.snd)

/-- The map from names to values. -/
def pairs : List (Text × Text) :=
  match command.mainParam, a.mainValue with
  | some p, some v => (p.name, v) :: a.entries
  | _, _ => a.entries

def lookup (name : Text) : Option Text := a.pairs.lookup name

def namedItem (e : Text × Text) : Text × Text := (e.1 ++ ['='], e.2)

/-- What stands before the quotes of the main parameter. -/
def mainLead (mainNamed : Bool) (p : ParamMetadata) : Text :=
  if mainNamed then p.name ++ ['='] else []

/-- What is written, each value with what stands before its quotes. Only the main parameter may
be written without its name. -/
def items (mainNamed : Bool) : List (Text × Text) :=
  match command.mainParam, a.mainValue with
  | some p, some v =>
      a.before.map namedItem ++ (mainLead mainNamed p, v) :: a.after.map namedItem
  | _, _ => a.entries.map namedItem

end Assignment

/-- The line on which the parameters are written one after another. -/
def Escaping.writeLine (E : Escaping) {command : CommandMetadata} (a : Assignment command)
    (mainNamed : Bool) : Text :=
  join ' ' ((a.items mainNamed).map E.writeItem)

variable {command : CommandMetadata} (a : Assignment command) (mainNamed : Bool) {p : ParamMetadata}
  {i : Text × Text}

theorem mainValue_of_none (hm : command.mainParam = none) : a.mainValue = none :=
  Option.not_isSome_iff_eq_none.mp (by rw [a.main_given, hm]; exact Bool.false_ne_true)

theorem mainValue_of_some (hm : command.mainParam = some p) :
    ∃ v, a.mainValue = some v :=
  Option.isSome_iff_exists.mp (by rw [a.main_given, hm]; rfl)

theorem items_of_none (hm : command.mainParam = none) :
    a.items mainNamed = a.entries.map Assignment.namedItem := by
  rw [Assignment.items, hm]

theorem items_of_some {v : Text} (hm : command.mainParam = some p) (hv : a.mainValue = some v) :
    a.items mainNamed =
      a.before.map Assignment.namedItem ++
        (Assignment.mainLead mainNamed p, v) :: a.after.map Assignment.namedItem := by
  rw [Assignment.items, hm, hv]

theorem pairs_of_none (hm : command.mainParam = none) : a.pairs = a.entries := by
  rw [Assignment.pairs, hm]

theorem pairs_of_some {v : Text} (hm : command.mainParam = some p) (hv : a.mainValue = some v) :
    a.pairs = (p.name, v) :: a.entries := by
  rw [Assignment.pairs, hm, hv]

theorem mem_pairs_of_entry {e : Text × Text} (he : e ∈ a.entries) : e ∈ a.pairs := by
  cases hm : command.mainParam with
  | none => rwa [pairs_of_none a hm]
  | some p =>
      obtain ⟨v, hv⟩ := mainValue_of_some a hm
      rw [pairs_of_some a hm hv]
      exact mem_cons_of_mem _ he

theorem pairs_nodup : (a.pairs.map Prod.fst).Nodup := by
  cases hm : command.mainParam with
  | none =>
      rw [pairs_of_none a hm]
      exact a.once
  | some p =>
      obtain ⟨v, hv⟩ := mainValue_of_some a hm
      rw [pairs_of_some a hm hv, map_cons, nodup_cons]
      exact ⟨a.apart p hm, a.once⟩

theorem lookup_of_pair {name v : Text} (h : (name, v) ∈ a.pairs) : a.lookup name = some v := by
  obtain ⟨pre, post, hsplit⟩ := append_of_mem h
  have hnodup := pairs_nodup a
  rw [hsplit, map_append, map_cons, nodup_append] at hnodup
  refine lookup_eq_some_iff.mpr ⟨pre, post, hsplit, fun e he => bne_iff_ne.mpr fun heq => ?_⟩
  exact hnodup.2.2 e.1 (mem_map_of_mem he) name mem_cons_self heq.symm

theorem items_values : (a.items mainNamed).map Prod.snd = a.values := by
  have hentries (es : List (Text × Text)) :
      (es.map Assignment.namedItem).map Prod.snd = es.map Prod.snd := map_map.trans rfl
  cases hm : command.mainParam with
  | none =>
      rw [items_of_none a mainNamed hm, Assignment.values, mainValue_of_none a hm, hentries,
        Assignment.entries, map_append]
      rfl
  | some p =>
      obtain ⟨v, hv⟩ := mainValue_of_some a hm
      rw [items_of_some a mainNamed hm hv, Assignment.values, hv, map_append,
        map_cons, hentries, hentries]
      rfl

variable {a}

theorem plain_of_entry {e : Text × Text} (he : e ∈ a.entries) : IsPlainName e.1 := by
  obtain ⟨p, _, hp⟩ := a.known e he
  exact hp ▸ p.plain

theorem isLead_mainLead (mainNamed : Bool) (p : ParamMetadata) :
    IsLead (Assignment.mainLead mainNamed p) := by
  cases mainNamed with
  | true => exact .inr ⟨p.name, p.plain, rfl⟩
  | false => exact .inl rfl

theorem item_cases (hi : i ∈ a.items mainNamed) :
    (∃ e ∈ a.entries, i = Assignment.namedItem e) ∨
      ∃ p v, command.mainParam = some p ∧ a.mainValue = some v ∧
        i = (Assignment.mainLead mainNamed p, v) := by
  have hentry {es : List (Text × Text)} (hes : es ⊆ a.entries)
      (hi : i ∈ es.map Assignment.namedItem) :
      ∃ e ∈ a.entries, i = Assignment.namedItem e := by
    obtain ⟨e, he, rfl⟩ := mem_map.mp hi
    exact ⟨e, hes he, rfl⟩
  cases hm : command.mainParam with
  | none =>
      rw [items_of_none a mainNamed hm] at hi
      exact .inl (hentry (List.Subset.refl _) hi)
  | some p =>
      obtain ⟨v, hv⟩ := mainValue_of_some a hm
      rw [items_of_some a mainNamed hm hv] at hi
      obtain hi | hi := mem_append.mp hi
      · exact .inl (hentry (subset_append_left _ _) hi)
      obtain rfl | hi := mem_cons.mp hi
      · exact .inr ⟨p, v, rfl, hv, rfl⟩
      · exact .inl (hentry (subset_append_right _ _) hi)

theorem isLead_of_item (hi : i ∈ a.items mainNamed) : IsLead i.1 := by
  obtain ⟨e, he, rfl⟩ | ⟨p, v, _, _, rfl⟩ := item_cases mainNamed hi
  · exact .inr ⟨e.1, plain_of_entry he, rfl⟩
  · exact isLead_mainLead mainNamed p

/-! ## The words of a written line -/

variable (a) (E : Escaping)

theorem solid_of_word : ∀ w ∈ (a.items mainNamed).map E.writeItem,
    w ≠ [] ∧ QuotedWords.Solid commandQuotes start w := by
  intro w hw
  obtain ⟨i, hi, rfl⟩ := mem_map.mp hw
  exact ⟨writeItem_ne_nil i, solid_writeItem (isLead_of_item mainNamed hi)⟩

theorem words_writeLine_eq :
    words commandQuotes (E.writeLine a mainNamed) =
      scanWords commandQuotes start [] (E.writeLine a mainNamed) := by
  refine words_eq_scanWords _ (trimmedEnd_join _ fun w hw => ?_)
  obtain ⟨i, _, rfl⟩ := mem_map.mp hw
  exact ⟨writeItem_ne_nil i, trimmedEnd_writeItem i⟩

variable {a}

/-- A line without a backslash at the end of a value, the last one apart, is cut into what was
written. -/
theorem words_writeLine (hgood : ∀ v ∈ a.values.dropLast, ¬ EndsInBackslash v) :
    words commandQuotes (E.writeLine a mainNamed) =
      (a.items mainNamed).map E.writeItem := by
  rw [words_writeLine_eq]
  refine scanWords_join _ rfl (solid_of_word a mainNamed E) fun w hw => ?_
  rw [← map_dropLast] at hw
  obtain ⟨i, hi, rfl⟩ := mem_map.mp hw
  rw [scan_writeItem (isLead_of_item mainNamed (mem_of_mem_dropLast hi))]
  refine decide_eq_false (hgood i.2 ?_)
  rw [← items_values a mainNamed, ← map_dropLast]
  exact mem_map_of_mem hi

theorem exists_first_bad (hbad : ∃ v ∈ a.values.dropLast, EndsInBackslash v) :
    ∃ pre i post, a.items mainNamed = pre ++ i :: post ∧ post ≠ [] ∧ EndsInBackslash i.2 ∧
      ∀ k ∈ pre, ¬ EndsInBackslash k.2 := by
  obtain ⟨v, hv, hend⟩ := hbad
  rw [← items_values a mainNamed, ← map_dropLast] at hv
  obtain ⟨j, hj, rfl⟩ := mem_map.mp hv
  generalize a.items mainNamed = is at hj ⊢
  cases hfind : is.dropLast.find? (fun k => decide (EndsInBackslash k.2)) with
  | none => exact absurd (decide_eq_true hend) (find?_eq_none.mp hfind j hj)
  | some i =>
      obtain ⟨hi, pre, rest, hsplit, hpre⟩ := find?_eq_some_iff_append.mp hfind
      have hne : is ≠ [] := by
        rintro rfl
        cases hj
      refine ⟨pre, i, rest ++ [is.getLast hne], ?_, ?_, of_decide_eq_true hi, fun k hk => ?_⟩
      · conv_lhs => rw [← dropLast_append_getLast hne, hsplit]
        rw [append_assoc, cons_append]
      · exact append_ne_nil_of_right_ne_nil _ (cons_ne_nil _ _)
      · exact of_decide_eq_false ((Bool.not_eq_true' _).mp (hpre k hk))

theorem words_writeLine_bad (hbad : ∃ v ∈ a.values.dropLast, EndsInBackslash v) :
    ∃ pre i post more tail, a.items mainNamed = pre ++ i :: post ∧ EndsInBackslash i.2 ∧
      words commandQuotes (E.writeLine a mainNamed) =
        pre.map E.writeItem ++ (E.writeItem i ++ ' ' :: more) :: tail := by
  obtain ⟨pre, i, post, hitems, hpost, hi, hpre⟩ := exists_first_bad mainNamed hbad
  have hlead : ∀ k ∈ pre ++ i :: post, IsLead k.1 := fun k hk =>
    isLead_of_item mainNamed (hitems ▸ hk)
  have hsolid := solid_of_word a mainNamed E
  have hclosed : ∀ w ∈ pre.map E.writeItem,
      (scan commandQuotes start w).isWhitespaceEscape = false := by
    intro w hw
    obtain ⟨k, hk, rfl⟩ := mem_map.mp hw
    rw [scan_writeItem (hlead k (mem_append_left _ hk))]
    exact decide_eq_false (hpre k hk)
  have hopen : (scan commandQuotes start
      (E.writeItem i)).isWhitespaceEscape = true := by
    rw [scan_writeItem (hlead i (mem_append_right _ mem_cons_self))]
    exact decide_eq_true hi
  rw [hitems, map_append, map_cons] at hsolid
  obtain ⟨more, tail, hcut⟩ := scanWords_join_open commandQuotes
    (show commandQuotes.isSpace ' ' = true from rfl)
    (fun h => hpost (map_eq_nil_iff.mp h)) hsolid hclosed hopen
  refine ⟨pre, i, post, more, tail, hitems, hi, ?_⟩
  rw [words_writeLine_eq, Escaping.writeLine, hitems, map_append, map_cons, hcut]

theorem words_writeLine_first {rest : List (Text × Text)} (h : a.items mainNamed = i :: rest) :
    ∃ x tail, words commandQuotes (E.writeLine a mainNamed) =
      (E.writeItem i ++ x) :: tail := by
  by_cases hbad : ∃ v ∈ a.values.dropLast, EndsInBackslash v
  · obtain ⟨pre, j, post, more, tail, hitems, _, hwords⟩ := words_writeLine_bad mainNamed E hbad
    rw [h] at hitems
    cases pre with
    | nil =>
        cases hitems
        exact ⟨_, _, hwords⟩
    | cons k pre =>
        cases hitems
        exact ⟨[], _, by rw [hwords, append_nil]; rfl⟩
  · have hwords := words_writeLine mainNamed E (a := a) fun v hv hend => hbad ⟨v, hv, hend⟩
    exact ⟨[], _, by rw [hwords, h, append_nil]; rfl⟩

theorem executeCommand_writeLine (reads : List Read) :
    executeCommand E.unescape command (E.writeLine a mainNamed) reads =
      (parseParams E.unescape command (E.writeLine a mainNamed) reads).map Execution.ofParse := by
  rw [executeCommand, splitFirstWord_eq]
  refine if_neg fun h => ?_
  have hhelp : (firstWord commandQuotes (E.writeLine a mainNamed)).1 =
      "help".toList := h
  have hne : (firstWord commandQuotes (E.writeLine a mainNamed)).1 ≠ [] := by
    rw [hhelp]
    decide
  have hwords := words_of_ne_nil commandQuotes hne
  cases hitems : a.items mainNamed with
  | nil =>
      have hempty : E.writeLine a mainNamed = [] := by
        rw [Escaping.writeLine, hitems]
        rfl
      rw [hempty] at hne
      exact hne rfl
  | cons i rest =>
      obtain ⟨x, tail, hfirst⟩ := words_writeLine_first mainNamed E hitems
      rw [hfirst, List.cons.injEq, hhelp] at hwords
      have hquote : '"' ∈ "help".toList := by
        rw [← hwords.1, Escaping.writeItem, Escaping.quoted]
        simp
      exact absurd hquote (by decide)

end IndySdk.Cli
