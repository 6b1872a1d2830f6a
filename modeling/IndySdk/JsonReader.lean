import IndySdk.Json

/-!
# Reading back JSON texts

A reader of the compact texts of values that are made of strings, arrays and objects. It reads a
value off the front of a text, and reads back what was written whatever follows.
-/

open List

namespace Json

def quotedChars (s : List Char) : List Char := '\x22' :: (s.flatMap escape ++ ['\x22'])

mutual

/-- The text of a value, character by character. -/
def chars : Json → List Char
  | .str s => quotedChars s.toList
  | .arr [] => ['[', ']']
  | .arr (e :: es) => '[' :: (chars e ++ elementChars es)
  | .obj [] => ['\x7b', '\x7d']
  | .obj ((key, value) :: ms) =>
    '\x7b' :: (quotedChars key.toList ++ ':' :: (chars value ++ memberChars ms))
  | j => j.text.toList

/-- The elements after the first, and the end of the array. -/
def elementChars : List Json → List Char
  | [] => [']']
  | e :: es => ',' :: (chars e ++ elementChars es)

def memberChars : List (String × Json) → List Char
  | [] => ['\x7d']
  | (key, value) :: ms =>
    ',' :: (quotedChars key.toList ++ ':' :: (chars value ++ memberChars ms))

end

mutual

/-- Values made of strings, arrays and objects. -/
def textual : Json → Bool
  | .str _ => true
  | .arr es => textualElements es
  | .obj ms => textualMembers ms
  | _ => false

def textualElements : List Json → Bool
  | [] => true
  | e :: es => textual e && textualElements es

def textualMembers : List (String × Json) → Bool
  | [] => true
  | (_, value) :: ms => textual value && textualMembers ms

end

mutual

/-- The number of arrays and objects around the innermost value. -/
def depth : Json → ℕ
  | .arr es => depthElements es + 1
  | .obj ms => depthMembers ms + 1
  | _ => 0

def depthElements : List Json → ℕ
  | [] => 0
  | e :: es => max (depth e) (depthElements es)

def depthMembers : List (String × Json) → ℕ
  | [] => 0
  | (_, value) :: ms => max (depth value) (depthMembers ms)

end

theorem depth_le_of_mem {m : String × Json} {members : List (String × Json)} (h : m ∈ members) :
    depth m.2 ≤ depthMembers members := by
  induction members with
  | nil => exact absurd h not_mem_nil
  | cons m' members ih =>
    rw [depthMembers]
    rcases mem_cons.mp h with rfl | hrest
    · exact Nat.le_max_left _ _
    · exact Nat.le_trans (ih hrest) (Nat.le_max_right _ _)

theorem depthMembers_le {members : List (String × Json)} {bound : ℕ}
    (h : ∀ m ∈ members, depth m.2 ≤ bound) : depthMembers members ≤ bound := by
  induction members with
  | nil => exact Nat.zero_le bound
  | cons m members ih =>
    rw [depthMembers]
    exact Nat.max_le.mpr
      ⟨h m mem_cons_self, ih (fun m' hm' => h m' (mem_cons_of_mem m hm'))⟩

theorem depth_put_le {key : String} {value : Json} {members : List (String × Json)} {bound : ℕ}
    (hvalue : depth value < bound) (h : depth (.obj members) ≤ bound) :
    depth (.obj (putMember key value members)) ≤ bound := by
  rw [depth] at h ⊢
  have hmembers : depthMembers (putMember key value members) ≤ bound - 1 := by
    apply depthMembers_le
    intro m hm
    rcases mem_putMember hm with rfl | hold
    · change depth value ≤ bound - 1
      omega
    · have hle := depth_le_of_mem hold
      omega
  omega

theorem toList_quote (s : String) : (quote s).toList = quotedChars s.toList := by
  rw [quote, String.toList_append, String.toList_append]
  simp only [String.toList_ofList]
  rfl

theorem toList_intercalate_cons (s : String) (l : List String) :
    (",".intercalate (s :: l)).toList = s.toList ++ l.flatMap (fun t => ',' :: t.toList) := by
  induction l generalizing s with
  | nil => simp
  | cons t l ih =>
    rw [String.intercalate_cons_cons, String.toList_append, String.toList_append, ih]
    simp

mutual

theorem toList_text : ∀ j : Json, j.text.toList = chars j
  | .null => rfl
  | .bool _ => rfl
  | .int _ => rfl
  | .float _ => rfl
  | .str s => by rw [text, chars, toList_quote]
  | .arr [] => by rw [text, chars, textElements]; rfl
  | .arr (e :: es) => by
    rw [text, chars, textElements, String.toList_append, String.toList_append,
      toList_intercalate_cons, toList_text e, append_assoc, append_assoc,
      toList_textElements es]
    rfl
  | .obj [] => by rw [text, chars, textMembers]; rfl
  | .obj ((key, value) :: ms) => by
    rw [text, chars, textMembers, String.toList_append, String.toList_append,
      toList_intercalate_cons, String.toList_append, String.toList_append, toList_quote,
      toList_text value]
    simp only [append_assoc, toList_textMembers ms]
    rfl

theorem toList_textElements : ∀ es : List Json,
    (textElements es).flatMap (fun t => ',' :: t.toList) ++ "]".toList = elementChars es
  | [] => rfl
  | e :: es => by
    rw [textElements, flatMap_cons, append_assoc, toList_textElements es, elementChars,
      toList_text e]
    rfl

theorem toList_textMembers : ∀ ms : List (String × Json),
    (textMembers ms).flatMap (fun t => ',' :: t.toList) ++ "\x7d".toList = memberChars ms
  | [] => rfl
  | (key, value) :: ms => by
    rw [textMembers, flatMap_cons, append_assoc, toList_textMembers ms, memberChars,
      String.toList_append, String.toList_append, toList_quote, toList_text value]
    simp only [append_assoc, cons_append]
    rfl

end

/-- The number of a lower case hexadecimal digit. -/
def hexValue (c : Char) : ℕ := if c.isDigit then c.toNat - 48 else c.toNat - 87

/-- The character after a backslash, for the characters with a short escape. -/
def unescape (c : Char) : Char :=
  if c = 'b' then '\x08'
  else if c = 'f' then '\x0c'
  else if c = 'n' then '\n'
  else if c = 'r' then '\r'
  else if c = 't' then '\t'
  else c

/-- The characters up to the closing quotation mark, and what follows it. -/
def readQuoted : List Char → Option (List Char × List Char)
  | [] => none
  | c :: cs =>
    if c = '\x22' then some ([], cs)
    else if c = '\x5c' then
      match cs with
      | 'u' :: _ :: _ :: high :: low :: rest =>
        (readQuoted rest).map
          (fun p => (Char.ofNat (16 * hexValue high + hexValue low) :: p.1, p.2))
      | c :: rest => (readQuoted rest).map (fun p => (unescape c :: p.1, p.2))
      | [] => none
    else (readQuoted cs).map (fun p => (c :: p.1, p.2))

theorem hexValue_digitChar {d : ℕ} (hd : d < 16) : hexValue (Nat.digitChar d) = d := by
  have hall : ∀ d < 16, hexValue (Nat.digitChar d) = d := by decide
  exact hall d hd

theorem readQuoted_escape (c : Char) (rest : List Char) :
    readQuoted (escape c ++ rest) = (readQuoted rest).map (fun p => (c :: p.1, p.2)) := by
  rw [escape]
  split_ifs with hself hb hf hn hr ht hcontrol
  · rcases hself with rfl | rfl <;> simp [readQuoted, unescape]
  · simp [readQuoted, unescape, hb]
  · simp [readQuoted, unescape, hf]
  · simp [readQuoted, unescape, hn]
  · simp [readQuoted, unescape, hr]
  · simp [readQuoted, unescape, ht]
  · have hvalue : 16 * hexValue (Nat.digitChar (c.toNat / 16)) +
        hexValue (Nat.digitChar (c.toNat % 16)) = c.toNat := by
      rw [hexValue_digitChar (by omega), hexValue_digitChar (by omega)]
      omega
    simp [readQuoted, hvalue]
  · rw [not_or] at hself
    rw [cons_append, nil_append, readQuoted.eq_def]
    exact (if_neg hself.1).trans (if_neg hself.2)

theorem readQuoted_chars (s rest : List Char) :
    readQuoted (s.flatMap escape ++ '\x22' :: rest) = some (s, rest) := by
  induction s with
  | nil =>
    rw [flatMap_nil, nil_append, readQuoted.eq_def]
    exact if_pos rfl
  | cons c s ih =>
    rw [flatMap_cons, append_assoc, readQuoted_escape, ih]
    rfl

mutual

/-- A value at the front of a text, and what follows it. The number bounds the nesting. -/
def readValue : ℕ → List Char → Option (Json × List Char)
  | n + 1, c :: cs =>
    if c = '\x22' then (readQuoted cs).map (fun p => (.str (String.ofList p.1), p.2))
    else if c = '[' then
      if cs.head? = some ']' then some (.arr [], cs.tail)
      else do
        let (e, cs) ← readValue n cs
        let (es, cs) ← readElements n cs
        some (.arr (e :: es), cs)
    else if c = '\x7b' then
      if cs.head? = some '\x7d' then some (.obj [], cs.tail)
      else do
        let (m, cs) ← readMember n cs
        let (ms, cs) ← readMembers n cs
        some (.obj (m :: ms), cs)
    else none
  | _, _ => none

def readElements : ℕ → List Char → Option (List Json × List Char)
  | n + 1, c :: cs =>
    if c = ']' then some ([], cs)
    else if c = ',' then do
      let (e, cs) ← readValue n cs
      let (es, cs) ← readElements n cs
      some (e :: es, cs)
    else none
  | _, _ => none

def readMember : ℕ → List Char → Option ((String × Json) × List Char)
  | n + 1, '\x22' :: cs => do
    let (key, cs) ← readQuoted cs
    if cs.head? = some ':' then do
      let (value, cs) ← readValue n cs.tail
      some ((String.ofList key, value), cs)
    else none
  | _, _ => none

def readMembers : ℕ → List Char → Option (List (String × Json) × List Char)
  | n + 1, c :: cs =>
    if c = '\x7d' then some ([], cs)
    else if c = ',' then do
      let (m, cs) ← readMember n cs
      let (ms, cs) ← readMembers n cs
      some (m :: ms, cs)
    else none
  | _, _ => none

end

/-- The value of a whole text. -/
def read (s : String) : Option Json :=
  match readValue s.toList.length s.toList with
  | some (j, []) => some j
  | _ => none

theorem head_chars_ne {j : Json} (h : textual j = true) {c : Char} (hc : c = ']' ∨ c = '\x7d')
    (rest : List Char) : (chars j ++ rest).head? ≠ some c := by
  have hstart : ∀ d : Char, d = '\x22' ∨ d = '[' ∨ d = '\x7b' → some d ≠ some c := by
    intro d hd hsame
    cases hsame
    rcases hc with rfl | rfl <;> revert hd <;> decide
  fun_cases chars j with
  | case1 s => exact hstart _ (.inl rfl)
  | case2 => exact hstart _ (.inr (.inl rfl))
  | case3 e es => exact hstart _ (.inr (.inl rfl))
  | case4 => exact hstart _ (.inr (.inr rfl))
  | case5 key value ms => exact hstart _ (.inr (.inr rfl))
  | case6 j hstr hnil harr hempty hobj =>
    cases j with
    | str s => exact absurd rfl (hstr s)
    | arr es =>
      cases es with
      | nil => exact absurd rfl hnil
      | cons e es => exact absurd rfl (harr e es)
    | obj ms =>
      cases ms with
      | nil => exact absurd rfl hempty
      | cons m ms => exact absurd rfl (hobj m.1 m.2 ms)
    | _ => cases h

theorem head_quotedChars_ne (s rest : List Char) : (quotedChars s ++ rest).head? ≠ some '\x7d' :=
  fun h => absurd (Option.some.inj h) (by decide)

theorem readMember_chars {n : ℕ} {key : String} {value : Json} {rest : List Char}
    (h : readValue n (chars value ++ rest) = some (value, rest)) :
    readMember (n + 1) (quotedChars key.toList ++ ':' :: (chars value ++ rest)) =
      some ((key, value), rest) := by
  rw [quotedChars, cons_append, append_assoc, readMember, singleton_append,
    readQuoted_chars]
  simp [h]

mutual

theorem readValue_chars : ∀ (j : Json) (n : ℕ) (rest : List Char), textual j = true →
    (chars j).length ≤ n → readValue n (chars j ++ rest) = some (j, rest)
  | .str s, n + 1, rest, _, _ => by
    rw [chars, quotedChars, cons_append, append_assoc, readValue, if_pos rfl,
      singleton_append, readQuoted_chars]
    simp
  | .arr [], n + 1, rest, _, _ => by
    rw [chars]
    rfl
  | .arr (e :: es), n + 1, rest, h, hn => by
    rw [textual, textualElements, Bool.and_eq_true] at h
    rw [chars, length_cons, length_append] at hn
    have he := readValue_chars e n (elementChars es ++ rest) h.1 (by omega)
    have hes := readElements_chars es n rest h.2 (by omega)
    rw [chars, cons_append, append_assoc, readValue, if_neg (by decide), if_pos rfl,
      if_neg (head_chars_ne h.1 (.inl rfl) _), he]
    simp [hes]
  | .obj [], n + 1, rest, _, _ => by
    rw [chars]
    rfl
  | .obj ((key, value) :: ms), n + 2, rest, h, hn => by
    rw [textual, textualMembers, Bool.and_eq_true] at h
    rw [chars, length_cons, length_append, length_cons, length_append] at hn
    have hvalue := readValue_chars value n (memberChars ms ++ rest) h.1 (by omega)
    have hms := readMembers_chars ms (n + 1) rest h.2 (by omega)
    have hmember := @readMember_chars n key value _ hvalue
    rw [chars, cons_append, append_assoc, cons_append, append_assoc, readValue,
      if_neg (by decide), if_neg (by decide), if_pos rfl,
      if_neg (head_quotedChars_ne _ _), hmember]
    simp [hms]

theorem readElements_chars : ∀ (es : List Json) (n : ℕ) (rest : List Char),
    textualElements es = true → (elementChars es).length ≤ n →
      readElements n (elementChars es ++ rest) = some (es, rest)
  | [], n + 1, rest, _, _ => by
    rw [elementChars]
    rfl
  | e :: es, n + 1, rest, h, hn => by
    rw [textualElements, Bool.and_eq_true] at h
    rw [elementChars, length_cons, length_append] at hn
    have he := readValue_chars e n (elementChars es ++ rest) h.1 (by omega)
    have hes := readElements_chars es n rest h.2 (by omega)
    rw [elementChars, cons_append, append_assoc, readElements, if_neg (by decide),
      if_pos rfl, he]
    simp [hes]

theorem readMembers_chars : ∀ (ms : List (String × Json)) (n : ℕ) (rest : List Char),
    textualMembers ms = true → (memberChars ms).length ≤ n →
      readMembers n (memberChars ms ++ rest) = some (ms, rest)
  | [], n + 1, rest, _, _ => by
    rw [memberChars]
    rfl
  | (key, value) :: ms, n + 2, rest, h, hn => by
    rw [textualMembers, Bool.and_eq_true] at h
    rw [memberChars, length_cons, length_append, length_cons,
      length_append] at hn
    have hvalue := readValue_chars value n (memberChars ms ++ rest) h.1 (by omega)
    have hms := readMembers_chars ms (n + 1) rest h.2 (by omega)
    have hmember := @readMember_chars n key value _ hvalue
    rw [memberChars, cons_append, append_assoc, cons_append, append_assoc,
      readMembers, if_neg (by decide), if_pos rfl, hmember]
    simp [hms]

end

theorem read_text {j : Json} (h : textual j = true) : read j.text = some j := by
  have hread := readValue_chars j (chars j).length [] h (Nat.le_refl _)
  rw [append_nil] at hread
  rw [read, toList_text, hread]

theorem find?_text {l : List Json} {j : Json} (hl : ∀ k ∈ l, textual k = true) (hj : j ∈ l) :
    l.find? (fun k => k.text = j.text) = some j := by
  induction l with
  | nil => cases hj
  | cons k l ih =>
    rw [forall_mem_cons] at hl
    by_cases htext : k.text = j.text
    · have hjk : textual j = true := by
        rcases mem_cons.mp hj with rfl | hj
        · exact hl.1
        · exact hl.2 j hj
      have hread := congrArg read htext
      rw [read_text hl.1, read_text hjk] at hread
      rw [find?_cons, decide_eq_true htext, hread]
    · have hrest : j ∈ l := (mem_cons.mp hj).resolve_left (fun h => htext (h ▸ rfl))
      rw [find?_cons, decide_eq_false htext]
      exact ih hl.2 hrest

theorem ge_of_mem_pair {a b c : Char} (ha : 32 ≤ a.toNat) (hb : 32 ≤ b.toNat) (h : c ∈ [a, b]) :
    32 ≤ c.toNat := by
  rcases mem_cons.mp h with rfl | h
  · exact ha
  · rw [mem_singleton.mp h]
    exact hb

theorem escape_ge {c d : Char} (h : d ∈ escape c) : 32 ≤ d.toNat := by
  have hdigit : ∀ n < 16, 32 ≤ (Nat.digitChar n).toNat := by decide
  rw [escape] at h
  split_ifs at h with hself hb hf hn hr ht hcontrol
  · rcases hself with rfl | rfl
    · exact ge_of_mem_pair (by decide) (by decide) h
    · exact ge_of_mem_pair (by decide) (by decide) h
  · exact ge_of_mem_pair (by decide) (by decide) h
  · exact ge_of_mem_pair (by decide) (by decide) h
  · exact ge_of_mem_pair (by decide) (by decide) h
  · exact ge_of_mem_pair (by decide) (by decide) h
  · exact ge_of_mem_pair (by decide) (by decide) h
  · simp only [mem_cons, not_mem_nil, or_false] at h
    rcases h with rfl | rfl | rfl | rfl | rfl | rfl
    · decide
    · decide
    · decide
    · decide
    · exact hdigit _ (by omega)
    · exact hdigit _ (by omega)
  · rw [mem_singleton.mp h]
    omega

theorem quotedChars_ge {s : List Char} {c : Char} (h : c ∈ quotedChars s) : 32 ≤ c.toNat := by
  rcases mem_cons.mp h with rfl | h
  · decide
  · rcases mem_append.mp h with h | h
    · obtain ⟨d, -, hd⟩ := mem_flatMap.mp h
      exact escape_ge hd
    · rw [mem_singleton.mp h]
      decide

mutual

theorem chars_ge : ∀ (j : Json), textual j = true → ∀ c ∈ chars j, 32 ≤ c.toNat
  | .str s, _, c, hc => by
    rw [chars] at hc
    exact quotedChars_ge hc
  | .arr [], _, c, hc => by
    rw [chars] at hc
    exact ge_of_mem_pair (by decide) (by decide) hc
  | .arr (e :: es), h, c, hc => by
    rw [textual, textualElements, Bool.and_eq_true] at h
    rw [chars, mem_cons, mem_append] at hc
    rcases hc with rfl | hc | hc
    · decide
    · exact chars_ge e h.1 c hc
    · exact elementChars_ge es h.2 c hc
  | .obj [], _, c, hc => by
    rw [chars] at hc
    exact ge_of_mem_pair (by decide) (by decide) hc
  | .obj ((key, value) :: ms), h, c, hc => by
    rw [textual, textualMembers, Bool.and_eq_true] at h
    rw [chars, mem_cons, mem_append, mem_cons, mem_append] at hc
    rcases hc with rfl | hc | rfl | hc | hc
    · decide
    · exact quotedChars_ge hc
    · decide
    · exact chars_ge value h.1 c hc
    · exact memberChars_ge ms h.2 c hc

theorem elementChars_ge : ∀ (es : List Json), textualElements es = true →
    ∀ c ∈ elementChars es, 32 ≤ c.toNat
  | [], _, c, hc => by
    rw [elementChars, mem_singleton] at hc
    rw [hc]
    decide
  | e :: es, h, c, hc => by
    rw [textualElements, Bool.and_eq_true] at h
    rw [elementChars, mem_cons, mem_append] at hc
    rcases hc with rfl | hc | hc
    · decide
    · exact chars_ge e h.1 c hc
    · exact elementChars_ge es h.2 c hc

theorem memberChars_ge : ∀ (ms : List (String × Json)), textualMembers ms = true →
    ∀ c ∈ memberChars ms, 32 ≤ c.toNat
  | [], _, c, hc => by
    rw [memberChars, mem_singleton] at hc
    rw [hc]
    decide
  | (key, value) :: ms, h, c, hc => by
    rw [textualMembers, Bool.and_eq_true] at h
    rw [memberChars, mem_cons, mem_append, mem_cons, mem_append] at hc
    rcases hc with rfl | hc | rfl | hc | hc
    · decide
    · exact quotedChars_ge hc
    · decide
    · exact chars_ge value h.1 c hc
    · exact memberChars_ge ms h.2 c hc

end

/-- A character that a quoted text has as it is. -/
def Unescaped (c : Char) : Prop := c ≠ '\x22' ∧ c ≠ '\x5c' ∧ 32 ≤ c.toNat

instance (c : Char) : Decidable (Unescaped c) := inferInstanceAs (Decidable (_ ∧ _ ∧ _))

theorem escape_of_unescaped {c : Char} (h : Unescaped c) : escape c = [c] := by
  obtain ⟨hquote, hslash, hge⟩ := h
  have hne : ∀ d : Char, d.toNat < 32 → c ≠ d := by
    intro d hd hcd
    rw [hcd] at hge
    omega
  rw [escape, if_neg (not_or.mpr ⟨hquote, hslash⟩), if_neg (hne _ (by decide)),
    if_neg (hne _ (by decide)), if_neg (hne _ (by decide)), if_neg (hne _ (by decide)),
    if_neg (hne _ (by decide)), if_neg (by omega)]

theorem quote_of_unescaped {s : String} (h : ∀ c ∈ s.toList, Unescaped c) :
    quote s = "\"" ++ s ++ "\"" := by
  have hsame : s.toList.flatMap escape = s.toList := by
    rw [flatMap_def, map_congr_left (fun c hc => escape_of_unescaped (h c hc)),
      ← flatMap_def, flatMap_singleton']
  rw [quote, hsame, String.ofList_toList]

/-- A reader that refuses what is nested too deeply. -/
def readNested (limit : ℕ) (s : String) : Option Json :=
  ((read s).filter (fun j => depth j ≤ limit)).map toValue

theorem readNested_text (limit : ℕ) {j : Json} (h : textual j = true) :
    readNested limit j.text = if depth j ≤ limit then some (toValue j) else none := by
  rw [readNested, read_text h, Option.filter_some]
  by_cases hd : depth j ≤ limit
  · simp [hd]
  · simp [hd]

end Json
