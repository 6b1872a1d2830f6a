import IndySdk.Delimited
import IndySdk.Json
import IndySdk.Numerals

/-!
# JSON values written flat

A value is written without brackets: the elements of an array with commas between them, the
members of an object as name and value with a colon, and bars between the members. Neither the end
of an object nor the kind of a scalar is marked, so values can be told apart only when it is known
which kind of value each name has and which names can follow an object.
-/

open List

namespace Json

def intText (i : ℤ) : String := if i < 0 then "-" ++ i.natAbs.repr else i.natAbs.repr

mutual

/-- The flat text of a value. -/
def flat : Json → List Char
  | .null => []
  | .bool b => (if b then "True" else "False").toList
  | .int i => (intText i).toList
  | .float t => t.toList
  | .str s => s.toList
  | .arr [] => []
  | .arr (e :: es) => flat e ++ flatElements es
  | .obj [] => []
  | .obj ((key, value) :: ms) => key.toList ++ ':' :: (flat value ++ flatMembers ms)

/-- The elements after the first. -/
def flatElements : List Json → List Char
  | [] => []
  | e :: es => ',' :: (flat e ++ flatElements es)

/-- The members after the first. -/
def flatMembers : List (String × Json) → List Char
  | [] => []
  | (key, value) :: ms => '|' :: (key.toList ++ ':' :: (flat value ++ flatMembers ms))

end

def separates (c : Char) : Prop := c = '|' ∨ c = ','

instance : DecidablePred separates := fun c => inferInstanceAs (Decidable (c = '|' ∨ c = ','))

/-- A text without bars and commas. -/
def plainText (s : String) : Bool := s.toList.all (fun c => !decide (separates c))

/-- A name without bars, commas and colons. -/
def plainName (s : String) : Bool := s.toList.all (fun c => !decide (separates c) && c ≠ ':')

def names (members : List (String × Json)) : List String := members.map Prod.fst

mutual

/-- No scalar and no name has a separator in its text, and no object repeats a name. -/
def clean : Json → Bool
  | .null => true
  | .bool _ => true
  | .int _ => true
  | .float t => plainText t
  | .str s => plainText s
  | .arr es => cleanElements es
  | .obj ms => decide (names ms).Nodup && cleanMembers ms

def cleanElements : List Json → Bool
  | [] => true
  | e :: es => clean e && cleanElements es

def cleanMembers : List (String × Json) → Bool
  | [] => true
  | (key, value) :: ms => plainName key && clean value && cleanMembers ms

end

/-- Names of one of two objects only are not among those that may follow the object. -/
def optionalApart (following : List String) (ms ms' : List (String × Json)) : Bool :=
  (names ms).all (fun key => key ∈ names ms' || key ∉ following) &&
    (names ms').all (fun key => key ∈ names ms || key ∉ following)

mutual

/-- Values of one kind: scalars of the same type, arrays of the same length, and objects that agree
on the kind of the members they share. A member that only one of them has bears a name that cannot
follow the object. -/
def alike (following : List String) : Json → Json → Bool
  | .null, .null => true
  | .bool _, .bool _ => true
  | .int _, .int _ => true
  | .float _, .float _ => true
  | .str _, .str _ => true
  | .arr es, .arr es' => alikeElements following es es'
  | .obj ms, .obj ms' => optionalApart following ms ms' &&
      alikeMembers (following ++ names ms ++ names ms') ms ms'
  | _, _ => false

def alikeElements (following : List String) : List Json → List Json → Bool
  | [], [] => true
  | e :: es, e' :: es' => alike following e e' && alikeElements following es es'
  | _, _ => false

def alikeMembers (following : List String) :
    List (String × Json) → List (String × Json) → Bool
  | [], _ => true
  | (key, value) :: ms, ms' =>
    ms'.all (fun m => m.1 ≠ key || alike following value m.2) && alikeMembers following ms ms'

end

theorem flat_arr (es : List Json) : flat (.arr es) = [','].intercalate (es.map flat) := by
  cases es with
  | nil => rfl
  | cons e es =>
    rw [flat, map_cons]
    induction es generalizing e with
    | nil => rw [flatElements, append_nil, map_nil, intercalate_singleton]
    | cons e' es ih =>
      rw [flatElements, ih, map_cons, intercalate_cons_cons, append_assoc]
      rfl

variable {s key : String} {rest : List Char}

theorem not_separates_of_plainText (h : plainText s = true) :
    ∀ c ∈ s.toList, ¬ separates c := by
  intro c hc
  have hall := all_eq_true.mp h c hc
  rwa [Bool.not_eq_true', decide_eq_false_iff_not] at hall

theorem plainName_apart (h : plainName s = true) :
    ∀ c ∈ s.toList, ¬ separates c ∧ c ≠ ':' := by
  intro c hc
  have hall := all_eq_true.mp h c hc
  rw [Bool.and_eq_true, Bool.not_eq_true', decide_eq_false_iff_not] at hall
  exact ⟨hall.1, of_decide_eq_true hall.2⟩

theorem colon_notMem (h : plainName s = true) : ':' ∉ s.toList :=
  fun hc => (plainName_apart h ':' hc).2 rfl

theorem name_eq_of_colon {key' : String} {rest' : List Char} (h : plainName key = true)
    (h' : plainName key' = true) (he : key.toList ++ ':' :: rest = key'.toList ++ ':' :: rest') :
    key = key' ∧ rest = rest' := by
  obtain ⟨hkey, hrest⟩ := Delimited.eq_of_append_cons (colon_notMem h) (colon_notMem h') he
  exact ⟨String.toList_injective hkey, hrest⟩

/-- What can follow a value: nothing, a comma, or a bar and a name. -/
inductive Follows (following : List String) : List Char → Prop where
  | nothing : Follows following []
  | comma (rest : List Char) : Follows following (',' :: rest)
  | member (key : String) (rest : List Char) (hkey : plainName key = true)
    (hmem : key ∈ following) : Follows following ('|' :: (key.toList ++ ':' :: rest))

variable {following : List String} {ms ms' : List (String × Json)} {r : List Char} {value : Json}

theorem Follows.stopped (h : Follows following rest) :
    Delimited.Stopped separates rest := by
  intro c hc
  cases h with
  | nothing => cases hc
  | comma rest => exact Option.some.inj hc ▸ Or.inr rfl
  | member key rest hkey hmem => exact Option.some.inj hc ▸ Or.inl rfl

theorem Follows.mono {more : List String} (h : Follows following rest)
    (hsub : ∀ key ∈ following, key ∈ more) : Follows more rest := by
  cases h with
  | nothing => exact .nothing
  | comma rest => exact .comma rest
  | member key rest hkey hmem => exact .member key rest hkey (hsub key hmem)

theorem Follows.elements (h : Follows following rest) (es : List Json) :
    Follows following (flatElements es ++ rest) := by
  cases es with
  | nil => exact h
  | cons e es => exact .comma _

theorem Follows.members {more : List String} (h : Follows following rest)
    (hsub : ∀ key ∈ following, key ∈ more) (hclean : cleanMembers ms = true)
    (hnames : ∀ key ∈ names ms, key ∈ more) : Follows more (flatMembers ms ++ rest) := by
  cases ms with
  | nil => exact h.mono hsub
  | cons m ms =>
    obtain ⟨key, value⟩ := m
    rw [cleanMembers, Bool.and_eq_true, Bool.and_eq_true] at hclean
    have hform : flatMembers ((key, value) :: ms) ++ rest =
        '|' :: (key.toList ++ ':' :: (flat value ++ flatMembers ms ++ rest)) := by
      rw [flatMembers, cons_append, append_assoc, cons_append]
    rw [hform]
    exact .member key _ hclean.1.1 (hnames key mem_cons_self)

theorem repr_plain (n : ℕ) : ∀ c ∈ n.repr.toList, ¬ separates c := by
  intro c hc hsep
  have hdigit := Numerals.isDigit_of_mem_repr hc
  rcases hsep with rfl | rfl
  · exact absurd hdigit (by decide)
  · exact absurd hdigit (by decide)

theorem intText_plain (i : ℤ) : ∀ c ∈ (intText i).toList, ¬ separates c := by
  intro c hc
  rw [intText] at hc
  by_cases hneg : i < 0
  · rw [if_pos hneg, String.toList_append] at hc
    rcases mem_append.mp hc with hc | hc
    · have hminus : c = '-' := by simpa using hc
      rw [hminus]
      decide
    · exact repr_plain i.natAbs c hc
  · rw [if_neg hneg] at hc
    exact repr_plain i.natAbs c hc

theorem parseSigned_intText {width : ℕ} {i : ℤ} (h : i.natAbs < 2 ^ (width - 1)) :
    Numerals.parseSigned width (intText i) = some i := by
  rw [intText]
  by_cases hneg : i < 0
  · rw [if_pos hneg, Numerals.parseSigned_neg_repr (Nat.le_of_lt h)]
    exact congrArg some (by omega)
  · rw [if_neg hneg, Numerals.parseSigned_repr h]
    exact congrArg some (by omega)

theorem intText_injective : Function.Injective intText := by
  intro i j h
  have hlt : i.natAbs + j.natAbs + 1 < 2 ^ (i.natAbs + j.natAbs + 1) := Nat.lt_two_pow_self
  have hi := @parseSigned_intText (i.natAbs + j.natAbs + 1 + 1) i
    (by rw [Nat.add_sub_cancel]; omega)
  have hj := @parseSigned_intText (i.natAbs + j.natAbs + 1 + 1) j
    (by rw [Nat.add_sub_cancel]; omega)
  rw [h, hj] at hi
  exact (Option.some.inj hi).symm

theorem boolText_plain (b : Bool) :
    ∀ c ∈ (if b then "True" else "False").toList, ¬ separates c := by
  cases b with
  | true => exact not_separates_of_plainText (by decide)
  | false => exact not_separates_of_plainText (by decide)

theorem boolText_injective :
    ∀ b b' : Bool, (if b then "True" else "False") = (if b' then "True" else "False") → b = b' := by
  decide

theorem scalar_inj {s' : String} {r' : List Char} (hs : ∀ c ∈ s.toList, ¬ separates c)
    (hs' : ∀ c ∈ s'.toList, ¬ separates c) (hr : Follows following r) (hr' : Follows following r')
    (h : s.toList ++ r = s'.toList ++ r') : s = s' ∧ r = r' := by
  obtain ⟨htext, hrest⟩ := Delimited.eq_of_append_stopped hs hs' hr.stopped hr'.stopped h
  exact ⟨String.toList_injective htext, hrest⟩

theorem alikeMembers_cons (h : alikeMembers following ((key, value) :: ms) ms' = true) :
    (∀ value', (key, value') ∈ ms' → alike following value value' = true) ∧
      alikeMembers following ms ms' = true := by
  rw [alikeMembers, Bool.and_eq_true] at h
  refine ⟨?_, h.2⟩
  intro value' hmem
  have hall := all_eq_true.mp h.1 (key, value') hmem
  rw [Bool.or_eq_true] at hall
  rcases hall with hne | halike
  · exact absurd rfl (of_decide_eq_true hne)
  · exact halike

theorem alikeMembers_tail {m : String × Json} (h : alikeMembers following ms (m :: ms') = true) :
    alikeMembers following ms ms' = true := by
  induction ms with
  | nil => rfl
  | cons n ms ih =>
    obtain ⟨key, value⟩ := n
    rw [alikeMembers, Bool.and_eq_true, all_cons, Bool.and_eq_true] at h
    rw [alikeMembers, Bool.and_eq_true]
    exact ⟨h.1.2, ih h.2⟩

/-- Each of two objects has, beyond the members of the other, only names that cannot follow. -/
def Apart (following : List String) (ms ms' : List (String × Json)) : Prop :=
  ∀ key ∈ names ms, key ∈ names ms' ∨ key ∉ following

theorem apart_of_optionalApart (h : optionalApart following ms ms' = true) :
    Apart following ms ms' ∧ Apart following ms' ms := by
  rw [optionalApart, Bool.and_eq_true, all_eq_true, all_eq_true] at h
  refine ⟨?_, ?_⟩
  · intro key hkey
    have hor := h.1 key hkey
    rwa [Bool.or_eq_true, decide_eq_true_iff, decide_eq_true_iff] at hor
  · intro key hkey
    have hor := h.2 key hkey
    rwa [Bool.or_eq_true, decide_eq_true_iff, decide_eq_true_iff] at hor

theorem Apart.tail {value' : Json} (h : Apart following ((key, value) :: ms) ((key, value') :: ms'))
    (hnodup : (names ((key, value) :: ms)).Nodup) : Apart following ms ms' := by
  intro other hother
  rcases h other (mem_cons_of_mem key hother) with hmem | hnot
  · rcases mem_cons.mp hmem with he | hmem
    · exact absurd (he ▸ hother) (nodup_cons.mp hnodup).1
    · exact .inl hmem
  · exact .inr hnot

theorem member_ne_rest {r' : List Char} (hapart : Apart following ((key, value) :: ms) [])
    (hkey : plainName key = true) (hr : Follows following r) :
    r ≠ flatMembers ((key, value) :: ms) ++ r' := by
  intro h
  have hform : flatMembers ((key, value) :: ms) ++ r' =
      '|' :: (key.toList ++ ':' :: (flat value ++ flatMembers ms ++ r')) := by
    rw [flatMembers, cons_append, append_assoc, cons_append]
  rw [hform] at h
  cases hr with
  | nothing => cases h
  | comma rest => cases h
  | member other rest hother hmem =>
    obtain ⟨he, -⟩ := name_eq_of_colon hother hkey (List.cons.inj h).2
    rcases hapart key mem_cons_self with hnil | hnot
    · cases hnil
    · exact hnot (he ▸ hmem)

theorem first_ne_rest (hkey : plainName key = true) (hr : Follows following r) :
    r ≠ key.toList ++ ':' :: rest := by
  intro h
  have hstop := hr.stopped
  rw [h] at hstop
  cases hl : key.toList with
  | nil =>
    rw [hl] at hstop
    exact absurd (hstop ':' rfl) (by decide)
  | cons c cs =>
    rw [hl] at hstop
    exact (plainName_apart hkey c (by rw [hl]; exact mem_cons_self)).1 (hstop c rfl)

mutual

/-- Clean values of one kind are told apart by their flat text, whatever follows them. -/
theorem flat_inj {following : List String} {r r' : List Char} (hr : Follows following r)
    (hr' : Follows following r') :
    (j j' : Json) → alike following j j' = true → clean j = true → clean j' = true →
      flat j ++ r = flat j' ++ r' → j = j' ∧ r = r'
  | .null, .null, _, _, _, h => ⟨rfl, h⟩
  | .bool b, .bool b', _, _, _, h => by
    rw [flat, flat] at h
    obtain ⟨htext, hrest⟩ := scalar_inj (boolText_plain b) (boolText_plain b') hr hr' h
    exact ⟨by rw [boolText_injective b b' htext], hrest⟩
  | .int i, .int i', _, _, _, h => by
    rw [flat, flat] at h
    obtain ⟨htext, hrest⟩ := scalar_inj (intText_plain i) (intText_plain i') hr hr' h
    exact ⟨by rw [intText_injective htext], hrest⟩
  | .float t, .float t', _, hc, hc', h => by
    rw [flat, flat] at h
    rw [clean] at hc hc'
    obtain ⟨htext, hrest⟩ := scalar_inj (not_separates_of_plainText hc)
      (not_separates_of_plainText hc') hr hr' h
    exact ⟨by rw [htext], hrest⟩
  | .str t, .str t', _, hc, hc', h => by
    rw [flat, flat] at h
    rw [clean] at hc hc'
    obtain ⟨htext, hrest⟩ := scalar_inj (not_separates_of_plainText hc)
      (not_separates_of_plainText hc') hr hr' h
    exact ⟨by rw [htext], hrest⟩
  | .arr [], .arr [], _, _, _, h => ⟨rfl, h⟩
  | .arr (e :: es), .arr (e' :: es'), halike, hc, hc', h => by
    rw [alike, alikeElements, Bool.and_eq_true] at halike
    rw [clean, cleanElements, Bool.and_eq_true] at hc hc'
    rw [flat, flat, append_assoc, append_assoc] at h
    obtain ⟨he, hrest⟩ := flat_inj (hr.elements es) (hr'.elements es') e e' halike.1 hc.1 hc'.1 h
    obtain ⟨hes, hrest⟩ := flatElements_inj hr hr' es es' halike.2 hc.2 hc'.2 hrest
    exact ⟨by rw [he, hes], hrest⟩
  | .obj [], .obj [], _, _, _, h => ⟨rfl, h⟩
  | .obj [], .obj ((key, value) :: ms), _, _, hc', h => by
    rw [clean, cleanMembers, Bool.and_eq_true, Bool.and_eq_true, Bool.and_eq_true] at hc'
    rw [flat, flat, nil_append, append_assoc, cons_append] at h
    exact absurd h (first_ne_rest hc'.2.1.1 hr)
  | .obj ((key, value) :: ms), .obj [], _, hc, _, h => by
    rw [clean, cleanMembers, Bool.and_eq_true, Bool.and_eq_true, Bool.and_eq_true] at hc
    rw [flat, flat, nil_append, append_assoc, cons_append] at h
    exact absurd h.symm (first_ne_rest hc.2.1.1 hr')
  | .obj ((key, value) :: ms), .obj ((key', value') :: ms'), halike, hc, hc', h => by
    rw [alike, Bool.and_eq_true] at halike
    rw [clean, Bool.and_eq_true, decide_eq_true_iff] at hc hc'
    obtain ⟨hapart, hapart'⟩ := apart_of_optionalApart halike.1
    have hmembers : flatMembers ((key, value) :: ms) ++ r =
        flatMembers ((key', value') :: ms') ++ r' := by
      rw [flat, flat] at h
      rw [flatMembers, flatMembers, cons_append, cons_append, h]
    obtain ⟨hms, hrest⟩ := flatMembers_inj hr hr'
      (fun k hk => mem_append_left _ (mem_append_left _ hk)) _ _
      (fun k hk => mem_append_left _ (mem_append_right _ hk))
      (fun k hk => mem_append_right _ hk) halike.2 hapart hapart' hc.1 hc'.1 hc.2 hc'.2
      hmembers
    exact ⟨by rw [hms], hrest⟩

theorem flatElements_inj {following : List String} {r r' : List Char} (hr : Follows following r)
    (hr' : Follows following r') :
    (es es' : List Json) → alikeElements following es es' = true → cleanElements es = true →
      cleanElements es' = true → flatElements es ++ r = flatElements es' ++ r' →
      es = es' ∧ r = r'
  | [], [], _, _, _, h => ⟨rfl, h⟩
  | e :: es, e' :: es', halike, hc, hc', h => by
    rw [alikeElements, Bool.and_eq_true] at halike
    rw [cleanElements, Bool.and_eq_true] at hc hc'
    rw [flatElements, flatElements, cons_append, cons_append, append_assoc,
      append_assoc] at h
    obtain ⟨he, hrest⟩ := flat_inj (hr.elements es) (hr'.elements es') e e' halike.1 hc.1 hc'.1
      (List.cons.inj h).2
    obtain ⟨hes, hrest⟩ := flatElements_inj hr hr' es es' halike.2 hc.2 hc'.2 hrest
    exact ⟨by rw [he, hes], hrest⟩

theorem flatMembers_inj {following more : List String} {r r' : List Char}
    (hr : Follows following r) (hr' : Follows following r')
    (hsub : ∀ key ∈ following, key ∈ more) :
    (ms ms' : List (String × Json)) → (∀ key ∈ names ms, key ∈ more) →
      (∀ key ∈ names ms', key ∈ more) → alikeMembers more ms ms' = true →
      Apart following ms ms' → Apart following ms' ms → (names ms).Nodup → (names ms').Nodup →
      cleanMembers ms = true → cleanMembers ms' = true →
      flatMembers ms ++ r = flatMembers ms' ++ r' → ms = ms' ∧ r = r'
  | [], [], _, _, _, _, _, _, _, _, _, h => ⟨rfl, h⟩
  | [], (key, value) :: ms, _, _, _, _, hapart, _, _, _, hc', h => by
    rw [cleanMembers, Bool.and_eq_true, Bool.and_eq_true] at hc'
    exact absurd h (member_ne_rest hapart hc'.1.1 hr)
  | (key, value) :: ms, [], _, _, _, hapart, _, _, _, hc, _, h => by
    rw [cleanMembers, Bool.and_eq_true, Bool.and_eq_true] at hc
    exact absurd h.symm (member_ne_rest hapart hc.1.1 hr')
  | (key, value) :: ms, (key', value') :: ms', hmore, hmore', halike, hapart, hapart', hnodup,
      hnodup', hc, hc', h => by
    rw [cleanMembers, Bool.and_eq_true, Bool.and_eq_true] at hc hc'
    rw [flatMembers, flatMembers, cons_append, cons_append, append_assoc,
      append_assoc, cons_append, cons_append] at h
    obtain ⟨rfl, hvalue⟩ := name_eq_of_colon hc.1.1 hc'.1.1 (List.cons.inj h).2
    obtain ⟨halikeValue, halikeRest⟩ := alikeMembers_cons halike
    have hfirst : ∀ k ∈ names ms, k ∈ more := fun k hk => hmore k (mem_cons_of_mem key hk)
    have hsecond : ∀ k ∈ names ms', k ∈ more := fun k hk => hmore' k (mem_cons_of_mem key hk)
    rw [append_assoc, append_assoc] at hvalue
    obtain ⟨hv, hrest⟩ := flat_inj (hr.members hsub hc.2 hfirst) (hr'.members hsub hc'.2 hsecond)
      value value' (halikeValue value' mem_cons_self) hc.1.2 hc'.1.2 hvalue
    obtain ⟨hms, hrest⟩ := flatMembers_inj hr hr' hsub ms ms' hfirst hsecond
      (alikeMembers_tail halikeRest) (hapart.tail hnodup) (hapart'.tail hnodup')
      (nodup_cons.mp hnodup).2 (nodup_cons.mp hnodup').2 hc.2 hc'.2 hrest
    exact ⟨by rw [hv, hms], hrest⟩

end

end Json
