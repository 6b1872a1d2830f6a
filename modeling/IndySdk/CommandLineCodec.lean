import IndySdk.WrittenLines

/-!
# When the parser inverts writing

A written line is parsed into the values that were written exactly when the main parameter comes
first and without its name, and no value but the last ends in a backslash. In one direction the
words of the line are what was written. In the other the first word that is not what was written
gives some parameter a value that it was not assigned, or the parser rejects the line.
-/

namespace IndySdk.Cli

open QuotedWords List

variable {command : CommandMetadata} {a : Assignment command} {mainNamed : Bool} (E : Escaping)

/-- A parameter as the parser finds it on the line. -/
def Escaping.asGiven (e : Text × Text) : Text × Option Text := (e.1, some (E.quoted e.2))

theorem splitAtEquals_writeItem {e : Text × Text} (hn : IsPlainName e.1) (x : Text) :
    splitAtEquals (E.writeItem (Assignment.namedItem e) ++ x) =
      (e.1, some (E.quoted e.2 ++ x)) := by
  have htext : E.writeItem (Assignment.namedItem e) ++ x =
      e.1 ++ '=' :: (E.quoted e.2 ++ x) := by
    simp [Escaping.writeItem, Assignment.namedItem]
  rw [htext, splitAtEquals_name hn]

theorem map_splitAtEquals :
    ((a.entries.map Assignment.namedItem).map E.writeItem).map splitAtEquals =
      a.entries.map E.asGiven := by
  rw [map_map, map_map]
  refine map_congr_left fun e he => ?_
  have h := splitAtEquals_writeItem E (plain_of_entry he) []
  rw [append_nil, append_nil] at h
  exact h

/-! ## Lines that are read back -/

variable {p : ParamMetadata} {v : Text}

theorem items_of_first (hm : command.mainParam = some p) (hv : a.mainValue = some v)
    (hfirst : a.before = []) :
    a.items mainNamed =
      (Assignment.mainLead mainNamed p, v) :: a.entries.map Assignment.namedItem := by
  rw [items_of_some a mainNamed hm hv, Assignment.entries, hfirst]
  rfl

theorem given_writeLine
    (hmain : command.mainParam = none ∨ (mainNamed = false ∧ a.before = []))
    (hgood : ∀ v ∈ a.values.dropLast, ¬ EndsInBackslash v) :
    given command (E.writeLine a mainNamed) = a.pairs.map E.asGiven := by
  have hwords := words_writeLine mainNamed E hgood
  cases hm : command.mainParam with
  | none =>
      rw [given_of_none hm, hwords, items_of_none a mainNamed hm, pairs_of_none a hm,
        map_splitAtEquals]
  | some p =>
      obtain ⟨v, hv⟩ := mainValue_of_some a hm
      obtain ⟨hnamed, hfirst⟩ := hmain.resolve_left fun h => by
        rw [hm] at h
        cases h
      rw [items_of_first hm hv hfirst, map_cons] at hwords
      rw [given_of_some hm hwords, pairs_of_some a hm hv, map_splitAtEquals, hnamed]
      rfl

theorem readable_writeLine
    (hmain : command.mainParam = none ∨ (mainNamed = false ∧ a.before = []))
    (hgood : ∀ v ∈ a.values.dropLast, ¬ EndsInBackslash v) :
    Readable E.unescape command (E.writeLine a mainNamed) := by
  have hwords := words_writeLine mainNamed E hgood
  have hentries : ∀ word ∈ (a.entries.map Assignment.namedItem).map E.writeItem,
      FineParam E.unescape command (splitAtEquals word) := by
    intro word hword
    rw [map_map] at hword
    obtain ⟨e, he, rfl⟩ := mem_map.mp hword
    have hsplit := splitAtEquals_writeItem E (plain_of_entry he) []
    rw [append_nil, append_nil] at hsplit
    rw [Function.comp_apply, hsplit]
    obtain ⟨p, hp, hname⟩ := a.known e he
    obtain ⟨p', hp'⟩ := Option.isSome_iff_exists.mp
      ((find?_isSome (p := fun p : ParamMetadata => p.name == e.1)).mpr
        ⟨p, hp, beq_iff_eq.mpr hname⟩)
    refine ⟨p', hp', ?_⟩
    dsimp only
    rw [unescape_quoted]
    rfl
  cases hm : command.mainParam with
  | none =>
      refine ⟨fun h => ?_, ?_⟩
      · rw [hm] at h
        cases h
      · rw [otherWords, hm]
        dsimp only
        rw [hwords, items_of_none a mainNamed hm]
        exact hentries
  | some p =>
      obtain ⟨v, hv⟩ := mainValue_of_some a hm
      obtain ⟨hnamed, hfirst⟩ := hmain.resolve_left fun h => by
        rw [hm] at h
        cases h
      rw [items_of_first hm hv hfirst, map_cons] at hwords
      refine ⟨fun _ => ⟨_, by rw [hwords]; rfl, ?_⟩, ?_⟩
      · have hword : E.writeItem (Assignment.mainLead mainNamed p, v) = E.quoted v := by
          rw [hnamed]
          rfl
        exact Option.isSome_iff_exists.mpr ⟨v, hword ▸ unescape_quoted E v⟩
      · rw [otherWords, hm]
        dsimp only
        rw [hwords]
        exact hentries

theorem parseParams_writeLine
    (hmain : command.mainParam = none ∨ (mainNamed = false ∧ a.before = []))
    (hgood : ∀ v ∈ a.values.dropLast, ¬ EndsInBackslash v) (reads : List Read) :
    ∃ res, parseParams E.unescape command (E.writeLine a mainNamed) reads = some (.ok res) ∧
      ∀ name, res.lookup name = a.lookup name := by
  have hg := given_writeLine E hmain hgood
  have honce : Once (given command (E.writeLine a mainNamed)) := by
    rw [hg, Once, pairwise_map]
    exact (pairwise_map.mp (pairs_nodup a)).imp fun hne heq => absurd heq.symm hne
  have hall : ∀ g ∈ given command (E.writeLine a mainNamed), g.2.isSome = true := by
    intro g hmem
    rw [hg] at hmem
    obtain ⟨e, _, rfl⟩ := mem_map.mp hmem
    rfl
  have hdeferred : ((given command (E.writeLine a mainNamed)).foldl (enter E.unescape)
      ⟨∅, []⟩).deferredParams = [] := by
    rw [← length_eq_zero_iff, deferredParams_length, length_nil, Nat.zero_add,
      countP_eq_zero]
    intro g hmem hnone
    have hsome := hall g hmem
    rw [Option.isNone_iff_eq_none.mp hnone] at hsome
    cases hsome
  have hparse : parseParams E.unescape command (E.writeLine a mainNamed) reads =
      some (.ok ((given command (E.writeLine a mainNamed)).foldl (enter E.unescape)
        ⟨∅, []⟩).res) :=
    (parseParams_eq_ok_iff _ _).mpr
      ⟨readable_writeLine E hmain hgood, honce, by rw [hdeferred]; rfl⟩
  refine ⟨_, hparse, fun name => ?_⟩
  rw [Assignment.lookup]
  cases hlook : a.pairs.lookup name with
  | none =>
      have hno : ∀ g ∈ given command (E.writeLine a mainNamed), g.1 ≠ name := by
        intro g hmem
        rw [hg] at hmem
        obtain ⟨e, he, rfl⟩ := mem_map.mp hmem
        exact (bne_iff_ne.mp (lookup_eq_none_iff.mp hlook e he)).symm
      rw [(foldl_enter_of_ne hno _).1]
      exact AList.lookup_empty _
  | some v =>
      obtain ⟨pre, post, hsplit, _⟩ := lookup_eq_some_iff.mp hlook
      have hmem : (name, some (E.quoted v)) ∈ given command (E.writeLine a mainNamed) := by
        rw [hg, hsplit]
        exact mem_map_of_mem (mem_append_right _ mem_cons_self)
      obtain ⟨u, hu, hres⟩ := lookup_of_given hparse hall hmem
      rw [unescape_quoted] at hu
      rw [hres, hu]

/-! ## Lines that are not read back -/

/-- The parser returns the values that were written, without asking the terminal for any. -/
def ReadBack (E : Escaping) (a : Assignment command) (mainNamed : Bool) : Prop :=
  ∀ reads, ∃ res, parseParams E.unescape command (E.writeLine a mainNamed) reads =
    some (.ok res) ∧ ∀ name, res.lookup name = a.lookup name

variable {t word s : Text} {words : List Text}

theorem ReadBack.unescape (h : ReadBack E a mainNamed) {name : Text} (hp : (name, v) ∈ a.pairs)
    (hg : (name, some t) ∈ given command (E.writeLine a mainNamed)) :
    E.unescape (withoutQuotes t) = some v := by
  obtain ⟨res, hparse, hres⟩ := h []
  obtain ⟨u, hu, hlook⟩ := lookup_of_given hparse (isSome_of_parse_nil hparse) hg
  rw [hres, lookup_of_pair a hp, Option.some.injEq] at hlook
  rw [hu, hlook]

theorem ReadBack.not_longer (h : ReadBack E a mainNamed) {name l x : Text}
    (hp : (name, v) ∈ a.pairs) (hl : ∀ c ∈ l, c ≠ '\\' ∧ c ≠ '"') (hne : l ≠ [] ∨ x ≠ []) :
    (name, some (l ++ E.quoted v ++ x)) ∉ given command (E.writeLine a mainNamed) :=
  fun hg => Nat.lt_irrefl _ (unescape_longer E hl hne (h.unescape E hp hg))

/-- No word after the first begins as the main parameter does, with the quote as it was written or
escaped. -/
theorem ReadBack.not_main (h : ReadBack E a mainNamed) (hm : command.mainParam = some p)
    (hw : QuotedWords.words commandQuotes (E.writeLine a mainNamed) = word :: words) {c : Char}
    (hc : c = '"' ∨ c = '\\') (t : Text) :
    Assignment.mainLead mainNamed p ++ c :: t ∉ words := by
  obtain ⟨res, hparse, _⟩ := h []
  intro hmem
  obtain ⟨hplain, hname⟩ := name_of_word hm hparse hw _ hmem
  cases mainNamed with
  | true =>
      have htext : Assignment.mainLead true p ++ c :: t = p.name ++ '=' :: (c :: t) := by
        rw [Assignment.mainLead, if_pos rfl, append_assoc]
        rfl
      rw [htext, splitAtEquals_name p.plain] at hname
      exact hname rfl
  | false =>
      have heq : c ≠ '=' := by
        obtain rfl | rfl := hc
        · decide
        · decide
      have htext : Assignment.mainLead false p ++ c :: t = c :: t := rfl
      rw [htext, splitAtEquals, if_neg heq] at hplain
      obtain ⟨_, _, hquote, hescape⟩ := hplain.2 c mem_cons_self
      exact hc.elim hquote hescape

/-! ## A main parameter that does not come first -/

theorem mem_tail_of_append {u w : Text} {ws us rest : List Text} (hne : ws ≠ [])
    (h : ws ++ w :: rest = u :: us) : w ∈ us := by
  cases ws with
  | nil => exact absurd rfl hne
  | cons x ws =>
      rw [cons_append, List.cons.injEq] at h
      exact h.2 ▸ mem_append_right _ mem_cons_self

theorem join_head (u : Text) (us : List Text) :
    ∃ t, join ' ' (u :: us) = u ++ t := by
  by_cases hnil : us = []
  · exact ⟨[], by rw [hnil, append_nil]; rfl⟩
  · exact ⟨_, join_cons hnil⟩

/-- When the line begins with a value that leaves its quotes open, its first word takes along the
beginning of the value after it. -/
theorem first_word_open {i j : Text × Text} (hi : IsLead i.1) (hj : IsLead j.1)
    (hend : EndsInBackslash i.2) (hs : ∀ c ∈ s, ¬ IsRawSpace E c) (hj2 : j.2 = s ++ t)
    (js : List (Text × Text)) :
    ∃ z tail, scanWords commandQuotes start []
        (join ' ' ((i :: j :: js).map E.writeItem)) =
      (E.writeItem i ++ ' ' :: (j.1 ++ '"' :: (E.escapeText s ++ z))) :: tail := by
  have hquote : commandQuotes.isSpace '"' = false := rfl
  have hopen : scan commandQuotes start (E.writeItem i) =
      ⟨false, true⟩ := by
    rw [scan_writeItem hi, decide_eq_true hend]
  have hsolid : QuotedWords.Solid commandQuotes start
      (E.writeItem i ++ ' ' :: (j.1 ++ '"' :: E.escapeText s)) := by
    rw [solid_append, hopen]
    refine ⟨solid_writeItem hi, fun _ => rfl, ?_⟩
    have hnext : next commandQuotes ⟨false, true⟩ ' ' = ⟨false, true⟩ := rfl
    rw [hnext, solid_append]
    exact ⟨solid_of_noSpace _ (noSpace_lead hj) _,
      fun h => absurd (hquote.symm.trans h) Bool.false_ne_true,
      solid_of_noSpace _ (noSpace_escapeText E hs) _⟩
  obtain ⟨r, hr⟩ := join_head (E.writeItem j) (js.map E.writeItem)
  have hjoin : join ' ' ((i :: j :: js).map E.writeItem) =
      (E.writeItem i ++ ' ' :: (j.1 ++ '"' :: E.escapeText s)) ++
        (E.escapeText t ++ '"' :: r) := by
    have hword : E.writeItem j =
        j.1 ++ '"' :: (E.escapeText s ++ (E.escapeText t ++ ['"'])) := by
      rw [Escaping.writeItem, Escaping.quoted, hj2, escapeText_append, cons_append,
        append_assoc]
    rw [map_cons, map_cons, join_cons (cons_ne_nil _ _), hr, hword]
    simp only [append_assoc, cons_append, nil_append]
  rw [hjoin, scanWords_of_solid _ hsolid, nil_append]
  have hcur : E.writeItem i ++ ' ' :: (j.1 ++ '"' :: E.escapeText s) ≠ [] :=
    append_ne_nil_of_left_ne_nil (writeItem_ne_nil i) _
  obtain ⟨z, tail, hz⟩ := scanWords_cons commandQuotes hcur
    (scan commandQuotes start
      (E.writeItem i ++ ' ' :: (j.1 ++ '"' :: E.escapeText s))) (E.escapeText t ++ '"' :: r)
  refine ⟨z, tail, hz.trans ?_⟩
  rw [append_assoc, cons_append, append_assoc, cons_append]

/-- Unescaped, such a first word is the beginning of the line without its escapes. -/
theorem unescape_first_word {name z l : Text} (hn : IsPlainName name) (hl : IsLead l) {w : Text}
    (h : E.unescape (withoutQuotes
      (E.writeItem (name ++ ['='], w) ++ ' ' :: (l ++ '"' :: (E.escapeText s ++ z)))) = some v) :
    ∃ r, v = (name ++ ['='] ++ '"' :: (w ++ ['"'])) ++ ' ' :: (l ++ '"' :: (s ++ r)) := by
  have htext : E.writeItem (name ++ ['='], w) ++ ' ' :: (l ++ '"' :: (E.escapeText s ++ z)) =
      (name ++ ['='] ++ ['"']) ++ (E.escapeText w ++
        ((['"', ' '] ++ l ++ ['"']) ++ (E.escapeText s ++ z))) := by
    rw [Escaping.writeItem, Escaping.quoted]
    simp only [append_assoc, cons_append, nil_append]
  have hfirst : ∀ c ∈ name ++ ['='] ++ ['"'], c ≠ '\\' := by
    intro c hc
    obtain hc | hc := mem_append.mp hc
    · exact (noEscape_lead (.inr ⟨name, hn, rfl⟩) c hc).1
    · rw [mem_singleton.mp hc]
      decide
  have hgap : ∀ c ∈ ['"', ' '], c ≠ '\\' :=
    forall_mem_cons.mpr ⟨by decide, forall_mem_singleton.mpr (by decide)⟩
  have hsecond : ∀ c ∈ ['"', ' '] ++ l ++ ['"'], c ≠ '\\' := by
    intro c hc
    obtain hc | hc := mem_append.mp hc
    · obtain hc | hc := mem_append.mp hc
      · exact hgap c hc
      · exact (noEscape_lead hl c hc).1
    · rw [mem_singleton.mp hc]
      decide
  have hkeep : withoutQuotes
      (E.writeItem (name ++ ['='], w) ++ ' ' :: (l ++ '"' :: (E.escapeText s ++ z))) =
      E.writeItem (name ++ ['='], w) ++ ' ' :: (l ++ '"' :: (E.escapeText s ++ z)) := by
    cases name with
    | nil => exact absurd rfl hn.1
    | cons c name => exact withoutQuotes_of_ne (hn.2 c mem_cons_self).2.2.1 _
  rw [hkeep, htext, unescape_plainText E hfirst, unescape_escapeText,
    unescape_plainText E hsecond, unescape_escapeText] at h
  obtain ⟨r, _, rfl⟩ : ∃ r, E.unescape z = some r ∧ _ = v := by
    simpa only [Option.map_map, Option.map_eq_some_iff, Function.comp_apply] using h
  exact ⟨r, by simp only [append_assoc, cons_append, nil_append]⟩

theorem join_split (u : Text) (us : List Text) (w : Text) (ws : List Text) :
    ∃ s t, join ' ' (u :: (us ++ w :: ws)) = u ++ (s ++ ' ' :: (w ++ t)) := by
  obtain ⟨t, ht⟩ := join_head w ws
  have hne : us ++ w :: ws ≠ [] := append_ne_nil_of_right_ne_nil _ (cons_ne_nil _ _)
  by_cases hnil : us = []
  · exact ⟨[], t, by rw [join_cons hne, hnil, nil_append, ht, nil_append]⟩
  · refine ⟨' ' :: join ' ' us, t, ?_⟩
    rw [join_cons hne, join_append hnil (cons_ne_nil _ _), ht,
      cons_append]

theorem word_behind_space {m : QuoteFlags} {cur : Text} (hcur : cur ≠ [])
    (hm : (scan commandQuotes m s).isWhitespaceEscape = false) {u : Text}
    (hu : ∀ c ∈ u, isWhitespace c = false) (hne : u ≠ [])
    (h : scanWords commandQuotes m cur (s ++ ' ' :: (u ++ t)) = word :: words) :
    ∃ x, u ++ x ∈ words := by
  obtain ⟨ws, hws, hcut⟩ := @scanWords_append _ _ commandQuotes m cur s ' ' (u ++ t)
    rfl hm
  have hsolid : QuotedWords.Solid commandQuotes start u :=
    solid_of_noSpace _ hu _
  rw [scanWords_of_solid _ hsolid, nil_append] at hws
  obtain ⟨x, rest, hx⟩ := scanWords_cons commandQuotes hne
    (scan commandQuotes start u) t
  rw [h, hx] at hws
  exact ⟨x, mem_tail_of_append (hcut hcur) hws.symm⟩

/-- A value written behind a space begins a word there, or else a quote was open before it; then
its own spaces stand outside quotes and what follows them begins words. -/
theorem word_of_item {m : QuoteFlags} {cur s₁ : Text} (hcur : cur ≠ []) {l₁ l : Text}
    (hl₁ : IsLead l₁) (hl : IsLead l) (hs : ∀ c ∈ s, ¬ IsRawSpace E c) {r : Text}
    (h : scanWords commandQuotes m cur
      (s₁ ++ ' ' :: (E.writeItem (l₁, v ++ ' ' :: (l ++ '"' :: (s ++ r))) ++ t)) =
        word :: words) :
    (∃ x, l₁ ++ '"' :: x ∈ words) ∨
      ∃ x, E.escapeText l ++ '\\' :: '"' :: (E.escapeText s ++ x) ∈ words := by
  cases hm : (scan commandQuotes m s₁).isWhitespaceEscape with
  | false =>
      left
      have htext : E.writeItem (l₁, v ++ ' ' :: (l ++ '"' :: (s ++ r))) ++ t =
          (l₁ ++ ['"']) ++ (E.escapeText (v ++ ' ' :: (l ++ '"' :: (s ++ r))) ++ '"' :: t) := by
        rw [Escaping.writeItem, Escaping.quoted]
        simp only [append_assoc, cons_append, nil_append]
      rw [htext] at h
      obtain ⟨x, hx⟩ := word_behind_space hcur hm (fun c hc => by
        obtain hc | hc := mem_append.mp hc
        · exact noSpace_lead hl₁ c hc
        · rw [mem_singleton.mp hc]
          rfl) (append_ne_nil_of_right_ne_nil _ (cons_ne_nil _ _)) h
      exact ⟨x, by rwa [append_assoc, singleton_append] at hx⟩
  | true =>
      right
      have hspace : E.escapeText (' ' :: (l ++ '"' :: (s ++ r))) =
          ' ' :: (E.escapeText l ++ '\\' :: '"' :: (E.escapeText s ++ E.escapeText r)) := by
        rw [← singleton_append, escapeText_append, escapeText_append,
          ← singleton_append (x := '"'), escapeText_append, escapeText_append]
        simp [Escaping.escapeText, E.escape_space, E.escape_quote]
      have htext : s₁ ++ ' ' :: (E.writeItem (l₁, v ++ ' ' :: (l ++ '"' :: (s ++ r))) ++ t) =
          (s₁ ++ ' ' :: (l₁ ++ '"' :: E.escapeText v)) ++ ' ' ::
            ((E.escapeText l ++ '\\' :: '"' :: E.escapeText s) ++
              (E.escapeText r ++ '"' :: t)) := by
        rw [Escaping.writeItem, Escaping.quoted, escapeText_append, hspace]
        simp only [append_assoc, cons_append, nil_append]
      have hclosed : (scan commandQuotes m
          (s₁ ++ ' ' :: (l₁ ++ '"' :: E.escapeText v))).isWhitespaceEscape = false := by
        have hopen : next commandQuotes (scan commandQuotes m s₁) ' ' =
            ⟨false, true⟩ := by
          refine QuoteFlags.ext rfl ?_
          exact (if_neg fun hc => absurd hc.2 (by decide)).trans hm
        rw [scan_append, scan_cons, hopen, scan_append,
          scan_lead hl₁ rfl, scan_cons, scan_escapeText_quoted]
        rfl
      rw [htext] at h
      obtain ⟨x, hx⟩ := word_behind_space hcur hclosed (fun c hc => by
        obtain hc | hc := mem_append.mp hc
        · exact noSpace_escapeText E
            (fun d hd hraw => Bool.false_ne_true ((noSpace_lead hl d hd).symm.trans hraw.1)) c hc
        · obtain rfl | hc := mem_cons.mp hc
          · rfl
          obtain rfl | hc := mem_cons.mp hc
          · rfl
          · exact noSpace_escapeText E hs c hc)
        (append_ne_nil_of_right_ne_nil _ (cons_ne_nil _ _)) h
      exact ⟨x, by rwa [append_assoc, cons_append, cons_append] at hx⟩

/-- No line is read back that begins with another value than the main one, if this value leaves
its quotes open. -/
theorem ReadBack.not_open_first (h : ReadBack E a mainNamed) (hm : command.mainParam = some p)
    {e : Text × Text} {es : List (Text × Text)} (hb : a.before = e :: es)
    (hend : EndsInBackslash e.2) : False := by
  obtain ⟨v, hv⟩ := mainValue_of_some a hm
  have hentry : ∀ e' ∈ e :: es, e' ∈ a.entries := fun e' he' =>
    mem_append_left _ (hb ▸ he')
  have hplain := plain_of_entry (hentry e mem_cons_self)
  have hitems : a.items mainNamed = Assignment.namedItem e ::
      (es.map Assignment.namedItem ++
        (Assignment.mainLead mainNamed p, v) :: a.after.map Assignment.namedItem) := by
    rw [items_of_some a mainNamed hm hv, hb]
    rfl
  obtain ⟨j, js, hjs⟩ := exists_cons_of_ne_nil
    (append_ne_nil_of_right_ne_nil (es.map Assignment.namedItem)
      (cons_ne_nil (Assignment.mainLead mainNamed p, v)
        (a.after.map Assignment.namedItem)))
  have hj : IsLead j.1 := isLead_of_item (a := a) mainNamed (by
    rw [hitems, hjs]
    exact mem_cons_of_mem _ mem_cons_self)
  obtain ⟨s, t, hst, hs, ht⟩ := exists_beforeSpace E j.2
  obtain ⟨z, tail, hword⟩ := first_word_open E (i := Assignment.namedItem e)
    (.inr ⟨e.1, hplain, rfl⟩) hj hend hs hst js
  have hwords := words_writeLine_eq a mainNamed E
  have hstart : E.writeLine a mainNamed =
      join ' ' ((Assignment.namedItem e :: j :: js).map E.writeItem) := by
    rw [Escaping.writeLine, hitems, hjs]
  rw [hstart, hword, ← hstart] at hwords
  -- the main value is the beginning of the line
  have hpair : (p.name, v) ∈ a.pairs := by
    rw [pairs_of_some a hm hv]
    exact mem_cons_self
  have hmain := h.unescape E hpair (by
    rw [given_of_some hm hwords]
    exact mem_cons_self)
  obtain ⟨r, hvr⟩ := unescape_first_word E hplain hj hmain
  -- so the words behind the main value repeat what stands at the beginning
  obtain ⟨s₁, t₁, hsplit⟩ := join_split (E.writeItem (Assignment.namedItem e))
    ((es.map Assignment.namedItem).map E.writeItem)
    (E.writeItem (Assignment.mainLead mainNamed p, v))
    ((a.after.map Assignment.namedItem).map E.writeItem)
  have hline : join ' '
        ((Assignment.namedItem e :: j :: js).map E.writeItem) =
      E.writeItem (Assignment.namedItem e) ++
        (s₁ ++ ' ' :: (E.writeItem (Assignment.mainLead mainNamed p, v) ++ t₁)) := by
    rw [← hjs, map_cons, map_append, map_cons, hsplit]
  rw [hline] at hword
  rw [scanWords_of_solid _ (solid_writeItem (.inr ⟨e.1, hplain, rfl⟩)),
    nil_append, scan_writeItem (.inr ⟨e.1, hplain, rfl⟩),
    decide_eq_true (show EndsInBackslash (Assignment.namedItem e).2 from hend)] at hword
  rw [hvr] at hword
  obtain ⟨x, hx⟩ | ⟨x, hx⟩ := word_of_item E (writeItem_ne_nil _)
    (isLead_mainLead mainNamed p) hj hs hword
  · exact h.not_main E hm hwords (.inl rfl) x hx
  obtain hlead | hlead := escapeText_lead E hj
  · rw [hlead] at hx
    cases es with
    | nil =>
        cases hjs
        exact h.not_main E hm hwords (.inr rfl) _ hx
    | cons e₁ es =>
        cases hjs
        have he₁ := hentry e₁ (mem_cons_of_mem _ mem_cons_self)
        have hgiven : (e₁.1, some ('\\' :: '"' :: (E.escapeText s ++ x))) ∈
            given command (E.writeLine a mainNamed) := by
          rw [given_of_some hm hwords]
          refine mem_cons_of_mem _ (mem_map.mpr ⟨_, hx, ?_⟩)
          rw [Assignment.namedItem, append_assoc]
          exact splitAtEquals_name (plain_of_entry he₁) _
        have hvalue := h.unescape E (mem_pairs_of_entry a he₁) hgiven
        have htext : '\\' :: '"' :: (E.escapeText s ++ x) =
            E.escape '"' ++ (E.escapeText s ++ x) := by
          rw [E.escape_quote]
          rfl
        rw [withoutQuotes_of_ne (by decide), htext, E.unescape_escape, unescape_escapeText]
          at hvalue
        obtain ⟨y, _, hy⟩ : ∃ y, E.unescape x = some y ∧ '"' :: (s ++ y) = e₁.2 := by
          simpa only [Option.map_map, Option.map_eq_some_iff, Function.comp_apply] using hvalue
        exact quote_beforeSpace_ne E hs ht (hy.trans hst)
  · obtain ⟨res, hparse, _⟩ := h []
    obtain ⟨hname, _⟩ := name_of_word hm hparse hwords _ hx
    exact (hname.2 _ (hlead _)).2.2.2 rfl

/-! ## Exactly the lines that are read back -/

/-- Behind the first word of a line that is read back, nothing stands that begins as a written
value and goes on. -/
theorem ReadBack.not_behind_first (h : ReadBack E a mainNamed) (hm : command.mainParam = some p)
    (hw : QuotedWords.words commandQuotes (E.writeLine a mainNamed) = word :: words)
    {i : Text × Text} (hi : i ∈ a.items mainNamed) {x : Text} (hx : x ≠ []) :
    E.writeItem i ++ x ∉ words := by
  intro hmem
  obtain ⟨e, he, rfl⟩ | ⟨p', v, hm', _, rfl⟩ := item_cases mainNamed hi
  · refine h.not_longer E (l := []) (x := x) (mem_pairs_of_entry a he)
      (fun c hc => absurd hc not_mem_nil) (.inr hx) ?_
    rw [given_of_some hm hw]
    refine mem_cons_of_mem _ (mem_map.mpr ⟨_, hmem, ?_⟩)
    exact splitAtEquals_writeItem E (plain_of_entry he) x
  · rw [hm] at hm'
    cases hm'
    rw [Escaping.writeItem, Escaping.quoted, append_assoc, cons_append,
      cons_append] at hmem
    exact h.not_main E hm hw (.inl rfl) _ hmem

theorem ReadBack.no_backslash (h : ReadBack E a mainNamed) :
    ∀ v ∈ a.values.dropLast, ¬ EndsInBackslash v := by
  intro v hv hend
  obtain ⟨pre, i, post, more, tail, hitems, hi, hwords⟩ :=
    words_writeLine_bad mainNamed E ⟨v, hv, hend⟩
  have hmem : ∀ k ∈ pre ++ i :: post, k ∈ a.items mainNamed := fun k hk => hitems ▸ hk
  have hmore : ' ' :: more ≠ [] := cons_ne_nil _ _
  cases hm : command.mainParam with
  | none =>
      obtain ⟨e, he, rfl⟩ | ⟨p, _, hm', _⟩ :=
        item_cases mainNamed (hmem i (mem_append_right _ mem_cons_self))
      · refine h.not_longer E (l := []) (x := ' ' :: more) (mem_pairs_of_entry a he)
          (fun c hc => absurd hc not_mem_nil) (.inr hmore) ?_
        rw [given_of_none hm, hwords]
        exact mem_map.mpr ⟨_, mem_append_right _ mem_cons_self,
          splitAtEquals_writeItem E (plain_of_entry he) _⟩
      · rw [hm] at hm'
        cases hm'
  | some p =>
      obtain ⟨w, hw⟩ := mainValue_of_some a hm
      cases pre with
      | cons j pre =>
          refine h.not_behind_first E hm hwords
            (hmem i (mem_append_right _ mem_cons_self)) hmore ?_
          exact mem_append_right _ mem_cons_self
      | nil =>
          cases hb : a.before with
          | cons e es =>
              rw [items_of_some a mainNamed hm hw, hb] at hitems
              cases hitems
              exact h.not_open_first E hm hb hi
          | nil =>
              rw [items_of_first hm hw hb] at hitems
              cases hitems
              refine h.not_longer E (l := Assignment.mainLead mainNamed p) (x := ' ' :: more)
                (v := w) (pairs_of_some a hm hw ▸ mem_cons_self)
                (noEscape_lead (isLead_mainLead mainNamed p)) (.inr hmore) ?_
              rw [given_of_some hm hwords]
              exact mem_cons_self

theorem ReadBack.main_first (h : ReadBack E a mainNamed) :
    command.mainParam = none ∨ (mainNamed = false ∧ a.before = []) := by
  cases hm : command.mainParam with
  | none => exact .inl rfl
  | some p =>
      obtain ⟨v, hv⟩ := mainValue_of_some a hm
      have hwords := words_writeLine mainNamed E (h.no_backslash E)
      cases hb : a.before with
      | cons e es =>
          rw [items_of_some a mainNamed hm hv, hb] at hwords
          exact absurd (mem_map_of_mem (mem_append_right _ mem_cons_self))
            (h.not_main E hm hwords (.inl rfl) (E.escapeText v ++ ['"']))
      | nil =>
          refine .inr ⟨Bool.eq_false_iff.mpr fun hnamed => ?_, rfl⟩
          rw [items_of_first hm hv hb] at hwords
          refine h.not_longer E (l := p.name ++ ['=']) (x := []) (v := v)
            (pairs_of_some a hm hv ▸ mem_cons_self)
            (noEscape_lead (.inr ⟨p.name, p.plain, rfl⟩))
            (.inl (append_ne_nil_of_right_ne_nil _ (cons_ne_nil _ _))) ?_
          rw [given_of_some hm hwords, Assignment.mainLead, if_pos hnamed, append_nil]
          exact mem_cons_self

/-! ## An escaping by letters -/

/-- The symbol that a letter stands for behind a backslash. -/
def letterOf : Char → Option Char
  | 'n' => some '\n'
  | 'r' => some '\r'
  | 't' => some '\t'
  | '\'' => some '\''
  | '"' => some '"'
  | '\\' => some '\\'
  | _ => none

def unescapeLetters : Text → Option Text
  | [] => some []
  | c :: s =>
      if c = '\\' then
        match s with
        | [] => none
        | d :: t => do
            let e ← letterOf d
            (unescapeLetters t).map (e :: ·)
      else (unescapeLetters s).map (c :: ·)

theorem unescapeLetters_of_ne {c : Char} (hc : c ≠ '\\') (s : Text) :
    unescapeLetters (c :: s) = (unescapeLetters s).map (c :: ·) := by
  rw [unescapeLetters.eq_def]
  exact if_neg hc

def letterEscaping : Escaping where
  unescape := unescapeLetters
  escape c := if c = '"' ∨ c = '\\' then ['\\', c] else [c]
  unescape_nil := rfl
  unescape_escape c s := by
    by_cases hq : c = '"'
    · rw [hq]
      rfl
    by_cases hb : c = '\\'
    · rw [hb]
      rfl
    · rw [if_neg (not_or.mpr ⟨hq, hb⟩), singleton_append, unescapeLetters_of_ne hb]
  unescape_plain c s hc := unescapeLetters_of_ne hc s
  escape_quote := rfl
  escape_backslash := rfl
  escape_space := rfl
  escape_other c hq hb := Or.inl (if_neg (not_or.mpr ⟨hq, hb⟩))

def twoParams : CommandMetadata where
  mainParam := none
  params := [⟨['a'], false, by decide⟩, ⟨['b'], true, by decide⟩]

def backslashValue : Assignment twoParams where
  before := []
  mainValue := none
  after := [(['a'], ['x', '\\']), (['b'], ['y'])]
  main_given := rfl
  known := by decide
  once := by decide
  apart := fun _ h => by cases h

/-- `a="x\\" b="y"`, as it is written for the values `x\` and `y`. -/
def backslashLine : Text :=
  ['a', '=', '"', 'x', '\\', '\\', '"', ' ', 'b', '=', '"', 'y', '"']

def deferredLine : Text := ['b', ' ', 'b', '=', '1']

def repeatedLine : Text := ['a', '=', '1', ' ', 'a', '=', '2']

theorem words_two {line u : Text} (hu : firstWord commandQuotes line = (u, v))
    (hv : firstWord commandQuotes v = (v, [])) (hu' : u ≠ []) (hv' : v ≠ []) :
    QuotedWords.words commandQuotes line = [u, v] := by
  have hnil : QuotedWords.words commandQuotes [] = [] := words_of_nil _ rfl
  rw [words_of_ne_nil _ (by rw [hu]; exact hu'), hu,
    words_of_ne_nil _ (by rw [hv]; exact hv'), hv, hnil]

/-- A line gives some parameter more than once. -/
def GivesTwice (command : CommandMetadata) (params : Text) : Prop :=
  ¬ ((given command params).map Prod.fst).Nodup

/-- When the parser inverts writing, when it rejects a line that gives a parameter twice, and
when it returns. -/
theorem commandLine_iff (command : CommandMetadata) :
    (∀ (a : Assignment command) (mainNamed : Bool),
      ReadBack E a mainNamed ↔
        (command.mainParam = none ∨ (mainNamed = false ∧ a.before = [])) ∧
          ∀ v ∈ a.values.dropLast, ¬ EndsInBackslash v) ∧
    (∀ (params : Text) (reads : List Read), GivesTwice command params →
      ((∃ e, parseParams E.unescape command params reads = some (.err e)) ↔
        ¬ Readable E.unescape command params ∨ ¬ Once (given command params))) ∧
    ∀ (params : Text) (reads : List Read),
      parseParams E.unescape command params reads ≠ some .panic ∧
        ((parseParams E.unescape command params reads).isSome = true ↔
          (¬ Readable E.unescape command params ∨ ¬ Once (given command params)) ∨
            (given command params).countP (fun g => g.2.isNone) ≤
              reads.countP givesValue) := by
  refine ⟨fun a mainNamed => ⟨fun h => ⟨h.main_first E, h.no_backslash E⟩, fun h =>
    parseParams_writeLine E h.1 h.2⟩, fun params reads _ => ?_, fun params reads =>
    ⟨parseParams_ne_panic _ _ _ _, ?_⟩⟩
  · rw [parseParams_err_iff, not_and_or]
  · rw [parseParams_isSome_iff, not_and_or]

theorem commandLine_repeated :
    GivesTwice twoParams repeatedLine ∧
      ∃ e, parseParams letterEscaping.unescape twoParams repeatedLine [] = some (.err e) := by
  have hwords : QuotedWords.words commandQuotes repeatedLine = [['a', '=', '1'], ['a', '=', '2']] :=
    words_two (by decide) (by decide) (by decide) (by decide)
  have hgiven : given twoParams repeatedLine = [(['a'], some ['1']), (['a'], some ['2'])] := by
    rw [given_of_none rfl, hwords]
    rfl
  have htwice : GivesTwice twoParams repeatedLine := by
    rw [GivesTwice, hgiven]
    decide
  have honce : ¬ Once (given twoParams repeatedLine) := by
    rw [hgiven, once_cons]
    exact fun h => Option.some_ne_none _ (h.1 _ mem_cons_self rfl)
  exact ⟨htwice, ((commandLine_iff letterEscaping twoParams).2.1 repeatedLine [] htwice).mpr
    (.inr honce)⟩

/-- A value before the last ends in a backslash, and a deferred parameter is given twice. -/
theorem backslashValue_misread :
    (letterEscaping.writeLine backslashValue false = backslashLine ∧
      ¬ ReadBack letterEscaping backslashValue false ∧
      parseParams unescapeLetters twoParams backslashLine [] =
        some (.ok (AList.insert ['a'] ['x', '\\', '"', ' ', 'b', '=', '"', 'y'] ∅))) ∧
    (GivesTwice twoParams deferredLine ∧
      parseParams unescapeLetters twoParams deferredLine [.ok ['2']] =
        some (.ok (AList.insert ['b'] ['2'] ∅))) := by
  have hone : QuotedWords.words commandQuotes backslashLine = [backslashLine] := by
    have hfirst : firstWord commandQuotes backslashLine = (backslashLine, []) := by
      decide
    have hnil : QuotedWords.words commandQuotes [] = [] := words_of_nil _ rfl
    rw [words_of_ne_nil _ (by rw [hfirst]; decide), hfirst, hnil]
  have htwo : QuotedWords.words commandQuotes deferredLine = [['b'], ['b', '=', '1']] :=
    words_two (by decide) (by decide) (by decide) (by decide)
  refine ⟨⟨rfl, fun h => h.no_backslash letterEscaping ['x', '\\'] (by decide) (by decide), ?_⟩,
    ?_, ?_⟩
  · rw [parseParams_eq, parseLine, takeMain_of_none _ _ rfl, Outcome.ok_bind, parseRest_eq, hone]
    rfl
  · rw [GivesTwice, given_of_none rfl, htwo]
    decide
  · rw [parseParams_eq, parseLine, takeMain_of_none _ _ rfl, Outcome.ok_bind, parseRest_eq, htwo]
    rfl

end IndySdk.Cli
