import IndySdk.CommandWords

/-!
# Writing parameters for the command line

A value is written between quotes with its symbols escaped. Scanning it leaves the quotes closed
except when the value ends in a backslash: the closing quote then stands right after the second
of two backslashes and is passed over.
-/

namespace IndySdk.Cli

open QuotedWords List Option

/-- What the unescaping library documents: it undoes escaping, symbol by symbol, and leaves what
does not begin with a backslash as it is. A symbol is escaped by a sequence that a backslash
begins, or stands for itself, as a space does. -/
structure Escaping where
  unescape : Text → Option Text
  escape : Char → Text
  unescape_nil : unescape [] = some []
  unescape_escape : ∀ c s, unescape (escape c ++ s) = (unescape s).map (c :: ·)
  unescape_plain : ∀ c s, c ≠ '\\' → unescape (c :: s) = (unescape s).map (c :: ·)
  escape_quote : escape '"' = ['\\', '"']
  escape_backslash : escape '\\' = ['\\', '\\']
  escape_space : escape ' ' = [' ']
  escape_other : ∀ c, c ≠ '"' → c ≠ '\\' → escape c = [c] ∨
    ∃ s d, escape c = '\\' :: (s ++ [d]) ∧ d ≠ '\\' ∧
      ∀ x ∈ s ++ [d], x ≠ '"' ∧ isWhitespace x = false

def EndsInBackslash (v : Text) : Prop := v.getLast? = some '\\'

instance (v : Text) : Decidable (EndsInBackslash v) :=
  inferInstanceAs (Decidable (v.getLast? = some '\\'))

variable (E : Escaping)

def Escaping.escapeText (v : Text) : Text := v.flatMap E.escape

def Escaping.quoted (v : Text) : Text := '"' :: E.escapeText v ++ ['"']

/-- What stands before the quotes of a value: `name=`, or nothing for a main parameter. -/
def IsLead (l : Text) : Prop := l = [] ∨ ∃ name, IsPlainName name ∧ l = name ++ ['=']

def Escaping.writeItem (i : Text × Text) : Text := i.1 ++ E.quoted i.2

/-! ## Unescaping what was written -/

theorem unescape_escapeText (v s : Text) :
    E.unescape (E.escapeText v ++ s) = (E.unescape s).map (v ++ ·) := by
  induction v with
  | nil =>
      rw [Escaping.escapeText, flatMap_nil, nil_append]
      exact map_id'.symm
  | cons c v ih =>
      rw [Escaping.escapeText] at ih ⊢
      rw [flatMap_cons, append_assoc, E.unescape_escape, ih, Option.map_map]
      rfl

theorem unescape_plainText {t : Text} (ht : ∀ c ∈ t, c ≠ '\\') (s : Text) :
    E.unescape (t ++ s) = (E.unescape s).map (t ++ ·) := by
  induction t with
  | nil => exact map_id'.symm
  | cons c t ih =>
      rw [cons_append, E.unescape_plain c _ (ht c mem_cons_self),
        ih fun d hd => ht d (mem_cons_of_mem _ hd), Option.map_map]
      rfl

theorem unescape_quoted (v : Text) :
    E.unescape (withoutQuotes (E.quoted v)) = some v := by
  have h := unescape_escapeText E v []
  rw [append_nil, E.unescape_nil, map_some, append_nil] at h
  rw [Escaping.quoted, withoutQuotes_quoted, h]

/-- A written value that the scanner did not cut where it ends comes back longer than it was. -/
theorem unescape_longer {lead v rest u : Text} (hl : ∀ c ∈ lead, c ≠ '\\' ∧ c ≠ '"')
    (hne : lead ≠ [] ∨ rest ≠ [])
    (hu : E.unescape (withoutQuotes (lead ++ E.quoted v ++ rest)) = some u) :
    v.length < u.length := by
  have hlong {t x : Text} (ht : ∀ c ∈ t, c ≠ '\\')
      (h : E.unescape (t ++ (E.escapeText v ++ ['"'] ++ x)) = some u) : v.length < u.length := by
    have hquote : ∀ c ∈ ['"'], c ≠ '\\' := forall_mem_singleton.mpr (by decide)
    rw [unescape_plainText E ht, append_assoc, unescape_escapeText,
      unescape_plainText E hquote, Option.map_map, Option.map_map] at h
    obtain ⟨y, _, rfl⟩ := map_eq_some_iff.mp h
    simp only [Function.comp_apply, length_append, length_singleton]
    omega
  have hopen : ∀ c ∈ ['"'], c ≠ '\\' := forall_mem_singleton.mpr (by decide)
  cases lead with
  | cons c lead =>
      have hc : ¬ (c = '"' ∧ (lead ++ E.quoted v ++ rest).getLast? = some '"') :=
        fun h => (hl c mem_cons_self).2 h.1
      rw [cons_append, cons_append, withoutQuotes, if_neg hc] at hu
      refine hlong (t := c :: lead ++ ['"']) (x := rest) (fun d hd => ?_) ?_
      · obtain hd | hd := mem_append.mp hd
        · exact (hl d hd).1
        · exact hopen d hd
      · simpa [Escaping.quoted] using hu
  | nil =>
      obtain ⟨x, d, rfl⟩ := (eq_nil_or_concat' rest).resolve_left
        (hne.resolve_left fun h => h rfl)
      by_cases hd : d = '"'
      · have htext : [] ++ E.quoted v ++ (x ++ [d]) =
            '"' :: (E.escapeText v ++ ['"'] ++ x) ++ ['"'] := by
          rw [hd]
          simp [Escaping.quoted]
        rw [htext, withoutQuotes_quoted] at hu
        exact hlong (t := []) (fun c hc => absurd hc not_mem_nil) hu
      · have htext : [] ++ E.quoted v ++ (x ++ [d]) =
            '"' :: (E.escapeText v ++ ['"'] ++ x ++ [d]) := by
          simp [Escaping.quoted]
        have hlast : ¬ ('"' = '"' ∧
            (E.escapeText v ++ ['"'] ++ x ++ [d]).getLast? = some '"') := by
          rw [getLast?_concat, Option.some.injEq]
          exact fun h => hd h.2
        rw [htext, withoutQuotes, if_neg hlast] at hu
        refine hlong (t := ['"']) (x := x ++ [d]) hopen ?_
        simpa using hu

/-! ## Scanning what was written -/

theorem scan_quoted_of_noQuote {s : Text} (hs : ∀ c ∈ s, c ≠ '"') (m : QuoteFlags) :
    (scan commandQuotes m s).isWhitespaceEscape = m.isWhitespaceEscape := by
  induction s generalizing m with
  | nil => rfl
  | cons c s ih =>
      rw [scan_cons, ih fun d hd => hs d (mem_cons_of_mem _ hd)]
      exact if_neg fun h => hs c mem_cons_self h.2

/-- Escaping a symbol other than a quote or a backslash brings neither in, a backslash in front
apart. -/
theorem escape_noQuote {c : Char} (hq : c ≠ '"') (hb : c ≠ '\\') :
    (∀ x ∈ E.escape c, x ≠ '"') ∧ ∃ s d, E.escape c = s ++ [d] ∧ d ≠ '\\' := by
  obtain hself | ⟨s, d, hesc, hd, hs⟩ := E.escape_other c hq hb
  · rw [hself]
    exact ⟨fun x hx => mem_singleton.mp hx ▸ hq, [], c, rfl, hb⟩
  · rw [hesc]
    refine ⟨fun x hx => ?_, '\\' :: s, d, rfl, hd⟩
    obtain rfl | hx := mem_cons.mp hx
    · decide
    · exact (hs x hx).1

theorem scan_escape (c : Char) (m : QuoteFlags) :
    scan commandQuotes m (E.escape c) =
      ⟨decide (c = '\\'), m.isWhitespaceEscape⟩ := by
  by_cases hq : c = '"'
  · obtain ⟨b, w⟩ := m
    rw [hq, E.escape_quote]
    cases b <;> rfl
  by_cases hb : c = '\\'
  · obtain ⟨b, w⟩ := m
    rw [hb, E.escape_backslash]
    cases b <;> rfl
  obtain ⟨hs, s, d, hesc, hd⟩ := escape_noQuote E hq hb
  have hopen := scan_quoted_of_noQuote hs m
  rw [decide_eq_false hb]
  refine QuoteFlags.ext ?_ hopen
  rw [hesc, scan_append]
  exact decide_eq_false hd

theorem scan_escapeText_quoted (v : Text) (m : QuoteFlags) :
    (scan commandQuotes m (E.escapeText v)).isWhitespaceEscape =
      m.isWhitespaceEscape := by
  induction v generalizing m with
  | nil => rfl
  | cons c v ih =>
      rw [Escaping.escapeText] at ih ⊢
      rw [flatMap_cons, scan_append, ih, scan_escape]

theorem scan_escapeText (v : Text) :
    scan commandQuotes ⟨false, true⟩ (E.escapeText v) =
      ⟨decide (EndsInBackslash v), true⟩ := by
  induction v using List.reverseRecOn with
  | nil => rfl
  | append_singleton v c ih =>
      rw [Escaping.escapeText] at ih ⊢
      rw [flatMap_append, scan_append, ih, flatMap_singleton, scan_escape]
      simp [EndsInBackslash]

theorem solid_of_noQuote {s : Text} (hs : ∀ c ∈ s, c ≠ '"') {m : QuoteFlags}
    (hm : m.isWhitespaceEscape = true) : QuotedWords.Solid commandQuotes m s := by
  induction s generalizing m with
  | nil => trivial
  | cons c s ih =>
      refine ⟨fun _ => hm, ih (fun d hd => hs d (mem_cons_of_mem _ hd)) ?_⟩
      exact (if_neg fun h => hs c mem_cons_self h.2).trans hm

theorem noSpace_escaped {c : Char} (hc : isWhitespace c = false) :
    ∀ x ∈ ['\\', c], isWhitespace x = false :=
  forall_mem_cons.mpr ⟨rfl, forall_mem_singleton.mpr hc⟩

theorem solid_escapeText (v : Text) (b : Bool) :
    QuotedWords.Solid commandQuotes ⟨b, true⟩ (E.escapeText v) := by
  induction v generalizing b with
  | nil => trivial
  | cons c v ih =>
      rw [Escaping.escapeText, flatMap_cons, solid_append, scan_escape]
      refine ⟨?_, ih _⟩
      by_cases hq : c = '"'
      · rw [hq, E.escape_quote]
        exact solid_of_noSpace _ (noSpace_escaped rfl) _
      by_cases hb : c = '\\'
      · rw [hb, E.escape_backslash]
        exact solid_of_noSpace _ (noSpace_escaped rfl) _
      exact solid_of_noQuote (escape_noQuote E hq hb).1 rfl

theorem scan_quoted (v : Text) :
    scan commandQuotes start (E.quoted v) =
      ⟨false, decide (EndsInBackslash v)⟩ := by
  have hopen : next commandQuotes start '"' = ⟨false, true⟩ := rfl
  rw [Escaping.quoted, cons_append, scan_cons, hopen, scan_append,
    scan_escapeText]
  cases decide (EndsInBackslash v) <;> rfl

theorem solid_quoted (v : Text) :
    QuotedWords.Solid commandQuotes start (E.quoted v) := by
  have hopen : next commandQuotes start '"' = ⟨false, true⟩ := rfl
  have hspace : commandQuotes.isSpace '"' = false := rfl
  have htext : QuotedWords.Solid commandQuotes
      (next commandQuotes start '"') (E.escapeText v ++ ['"']) := by
    rw [hopen, solid_append]
    exact ⟨solid_escapeText E v false, fun h => absurd (hspace.symm.trans h) Bool.false_ne_true,
      trivial⟩
  exact ⟨fun h => absurd (hspace.symm.trans h) Bool.false_ne_true, htext⟩

variable {E} {l : Text}

theorem scan_lead (hl : IsLead l) {m : QuoteFlags} (hm : m.isQuoteEscape = false) :
    scan commandQuotes m l = m := by
  obtain rfl | ⟨name, hn, rfl⟩ := hl
  · rfl
  · have hplain : ∀ c ∈ name, c ≠ commandQuotes.quote ∧ c ≠ commandQuotes.escape :=
      fun c hc => ⟨(hn.2 c hc).2.2.1, (hn.2 c hc).2.2.2⟩
    rw [scan_append, scan_plain _ hplain _ hn.1]
    exact QuoteFlags.ext hm.symm rfl

theorem noEscape_lead (hl : IsLead l) : ∀ c ∈ l, c ≠ '\\' ∧ c ≠ '"' := by
  obtain rfl | ⟨name, hn, rfl⟩ := hl
  · exact fun c hc => absurd hc not_mem_nil
  · intro c hc
    obtain hc | hc := mem_append.mp hc
    · exact ⟨(hn.2 c hc).2.2.2, (hn.2 c hc).2.2.1⟩
    · rw [mem_singleton.mp hc]
      decide

theorem noSpace_lead (hl : IsLead l) : ∀ c ∈ l, isWhitespace c = false := by
  obtain rfl | ⟨name, hn, rfl⟩ := hl
  · exact fun c hc => absurd hc not_mem_nil
  · intro c hc
    obtain hc | hc := mem_append.mp hc
    · exact (hn.2 c hc).1
    · rw [mem_singleton.mp hc]
      rfl

theorem scan_writeItem {i : Text × Text} (hl : IsLead i.1) :
    scan commandQuotes start (E.writeItem i) =
      ⟨false, decide (EndsInBackslash i.2)⟩ := by
  rw [Escaping.writeItem, scan_append, scan_lead hl rfl, scan_quoted]

theorem solid_writeItem {i : Text × Text} (hl : IsLead i.1) :
    QuotedWords.Solid commandQuotes start (E.writeItem i) := by
  rw [Escaping.writeItem, solid_append, scan_lead hl rfl]
  exact ⟨solid_of_noSpace _ (noSpace_lead hl) _, solid_quoted E i.2⟩

theorem writeItem_ne_nil (i : Text × Text) : E.writeItem i ≠ [] :=
  append_ne_nil_of_right_ne_nil _ (cons_ne_nil _ _)

theorem trimmedEnd_writeItem (i : Text × Text) :
    QuotedWords.TrimmedEnd commandQuotes (E.writeItem i) := by
  intro t c ht
  rw [Escaping.writeItem, Escaping.quoted, ← append_assoc] at ht
  have hlast : ['"'] = [c] := (append_inj' ht rfl).2
  cases hlast
  rfl

theorem splitAtEquals_name {name : Text} (hn : IsPlainName name) (t : Text) :
    splitAtEquals (name ++ '=' :: t) = (name, some t) := by
  have hplain : ∀ c ∈ name, c ≠ '=' := fun c hc => (hn.2 c hc).2.1
  clear hn
  induction name with
  | nil => rfl
  | cons c name ih =>
      rw [cons_append, splitAtEquals, if_neg (hplain c mem_cons_self),
        ih fun d hd => hplain d (mem_cons_of_mem _ hd)]

/-! ## Escaped text outside quotes -/

variable (E)

/-- A symbol that escaping leaves as a white space. -/
def IsRawSpace (c : Char) : Prop := isWhitespace c = true ∧ E.escape c = [c]

instance (c : Char) : Decidable (IsRawSpace E c) :=
  inferInstanceAs (Decidable (_ ∧ _))

theorem noSpace_escape {c : Char} (hc : ¬ IsRawSpace E c) :
    ∀ x ∈ E.escape c, isWhitespace x = false := by
  by_cases hq : c = '"'
  · rw [hq, E.escape_quote]
    exact noSpace_escaped rfl
  by_cases hb : c = '\\'
  · rw [hb, E.escape_backslash]
    exact noSpace_escaped rfl
  obtain hself | ⟨s, d, hesc, _, hs⟩ := E.escape_other c hq hb
  · rw [hself]
    intro x hx
    rw [mem_singleton.mp hx]
    exact Bool.eq_false_iff.mpr fun hspace => hc ⟨hspace, hself⟩
  · rw [hesc]
    intro x hx
    obtain rfl | hx := mem_cons.mp hx
    · decide
    · exact (hs x hx).2

theorem noSpace_escapeText {v : Text} (hv : ∀ c ∈ v, ¬ IsRawSpace E c) :
    ∀ x ∈ E.escapeText v, isWhitespace x = false := by
  intro x hx
  obtain ⟨c, hc, hx⟩ := mem_flatMap.mp hx
  exact noSpace_escape E (hv c hc) x hx

theorem escapeText_name {name : Text} (hn : ∀ c ∈ name, c ≠ '=' ∧ c ≠ '"' ∧ c ≠ '\\') :
    E.escapeText (name ++ ['=']) = name ++ ['='] ∨
      ∀ r, '\\' ∈ (splitAtEquals (E.escapeText (name ++ ['=']) ++ r)).1 := by
  have hstop {s t : Text} : '\\' ∈ (splitAtEquals ('\\' :: s ++ t)).1 := by
    rw [cons_append, splitAtEquals, if_neg (by decide)]
    exact mem_cons_self
  induction name with
  | nil =>
      rw [nil_append, Escaping.escapeText, flatMap_singleton]
      obtain hself | ⟨s, d, hesc, _⟩ := E.escape_other '=' (by decide) (by decide)
      · exact .inl hself
      · rw [hesc]
        exact .inr fun r => hstop
  | cons c name ih =>
      obtain ⟨heq, hq, hb⟩ := hn c mem_cons_self
      rw [Escaping.escapeText] at ih ⊢
      rw [cons_append, flatMap_cons]
      obtain hself | ⟨s, d, hesc, _⟩ := E.escape_other c hq hb
      · rw [hself, singleton_append]
        obtain hname | hname := ih fun d hd => hn d (mem_cons_of_mem _ hd)
        · exact .inl (congrArg (c :: ·) hname)
        · refine .inr fun r => ?_
          rw [cons_append, splitAtEquals, if_neg heq]
          exact mem_cons_of_mem _ (hname r)
      · rw [hesc]
        refine .inr fun r => ?_
        rw [append_assoc]
        exact hstop

theorem escapeText_append (s t : Text) :
    E.escapeText (s ++ t) = E.escapeText s ++ E.escapeText t := flatMap_append

theorem escapeText_lead (hl : IsLead l) :
    E.escapeText l = l ∨ ∀ r, '\\' ∈ (splitAtEquals (E.escapeText l ++ r)).1 := by
  obtain rfl | ⟨name, hn, rfl⟩ := hl
  · exact .inl rfl
  · exact escapeText_name E fun c hc => (hn.2 c hc).2

theorem exists_beforeSpace (v : Text) :
    ∃ s t, v = s ++ t ∧ (∀ c ∈ s, ¬ IsRawSpace E c) ∧ ∀ c ∈ t.head?, IsRawSpace E c := by
  induction v with
  | nil => exact ⟨[], [], rfl, (fun c hc => absurd hc not_mem_nil), fun c hc => by cases hc⟩
  | cons c v ih =>
      by_cases hc : IsRawSpace E c
      · refine ⟨[], c :: v, rfl, fun d hd => absurd hd not_mem_nil, fun d hd => ?_⟩
        cases hd
        exact hc
      · obtain ⟨s, t, rfl, hs, ht⟩ := ih
        exact ⟨c :: s, t, rfl, forall_mem_cons.mpr ⟨hc, hs⟩, ht⟩

theorem quote_beforeSpace_ne {s t u : Text} (hs : ∀ c ∈ s, ¬ IsRawSpace E c)
    (ht : ∀ c ∈ t.head?, IsRawSpace E c) : '"' :: (s ++ u) ≠ s ++ t := by
  intro h
  rw [← cons_append] at h
  obtain ⟨w, hlong, _⟩ | ⟨w, hw, hrest⟩ := append_eq_append_iff.mp h
  · have hlen := congrArg List.length hlong
    simp only [length_append, length_cons] at hlen
    omega
  · cases w with
    | nil =>
        have hlen := congrArg List.length hw
        simp only [length_append, length_cons, length_nil] at hlen
        omega
    | cons d w =>
        have hd : IsRawSpace E d := ht d (by rw [hrest]; rfl)
        have hmem : d ∈ '"' :: s := hw ▸ mem_append_right _ mem_cons_self
        obtain rfl | hmem := mem_cons.mp hmem
        · exact Bool.false_ne_true hd.1
        · exact hs d hmem hd

end IndySdk.Cli
