import IndySdk.Bytes
import IndySdk.Errors
import IndySdk.FlatJson

/-!
# What a signature of a request signs

A request is signed as flat text, without its signatures and fees. The attribute values of a
request that writes or reads an attribute stand in it as their digests.
-/

namespace IndySdk.Crypto

open Outcome List

def attrib : String := "100"
def getAttr : String := "104"

/-- The members that no signature covers. -/
def unsignedNames : List String := ["signature", "fees", "signatures"]

def hashedNames : List String := ["raw", "hash", "enc"]

/-- The value of this name is hashed in a request of the type. -/
def isHashed (type : Option String) (key : String) : Bool :=
  (type = some attrib || type = some getAttr) && hashedNames.contains key

variable (sha256 : Bytes → Bytes)

def hashValue (value : Json) : IndyResult String :=
  match value.asStr with
  | some s => .ok (Bytes.toHex (sha256 (Bytes.ofText s)))
  | none => .err (errMsg .invalidState "Cannot update hash context")

variable (type : Option String)

mutual

def serialize (isTopLevel : Bool) : Json → IndyResult String
  | .bool value => .ok (if value then "True" else "False")
  | .int value => .ok (Json.intText value)
  | .float value => .ok value
  | .str value => .ok value
  | .arr array => do
    let res ← serializeElements array
    pure (",".intercalate res)
  | .obj map => serializeMembers isTopLevel "" false map
  | .null => .ok ""

def serializeElements : List Json → IndyResult (List String)
  | [] => .ok []
  | element :: array => do
    let first ← serialize false element
    let rest ← serializeElements array
    pure (first :: rest)

/-- The members are appended to the text so far. -/
def serializeMembers (isTopLevel : Bool) (result : String) (inMiddle : Bool) :
    List (String × Json) → IndyResult String
  | [] => .ok result
  | (key, value) :: map =>
    if isTopLevel && unsignedNames.contains key then
      serializeMembers isTopLevel result inMiddle map
    else do
      let result := if inMiddle then result ++ "|" else result
      let text ← (if isHashed type key then hashValue sha256 value else serialize false value)
      serializeMembers isTopLevel (result ++ key ++ ":" ++ text) true map

end

/-- The type of a request. -/
def requestType (v : Json) : Option String := ((v.get "operation").get "type").asStr

def serializeSignature (v : Json) : IndyResult String := serialize sha256 (requestType v) true v

def hashedValue (value : Json) : IndyResult Json := do
  let digest ← hashValue sha256 value
  pure (.str digest)

/-- What a signature covers of a request. -/
def signedPart : Json → Json
  | .obj map => .obj (map.filter (fun m => !unsignedNames.contains m.1))
  | v => v

mutual

/-- A value with the digests in the place of the attribute values. -/
def hashed : Json → IndyResult Json
  | .arr array => do
    let array ← hashedElements array
    pure (.arr array)
  | .obj map => do
    let map ← hashedMembers map
    pure (.obj map)
  | v => .ok v

def hashedElements : List Json → IndyResult (List Json)
  | [] => .ok []
  | element :: array => do
    let first ← hashed element
    let rest ← hashedElements array
    pure (first :: rest)

def hashedMembers : List (String × Json) → IndyResult (List (String × Json))
  | [] => .ok []
  | (key, value) :: map => do
    let first ← (if isHashed type key then hashedValue sha256 value else hashed value)
    let rest ← hashedMembers map
    pure ((key, first) :: rest)

end

/-- A request as it is signed: what the signature covers, with the digests. -/
def written (j : Json) : IndyResult Json := hashed sha256 (requestType j) (signedPart j)

mutual

/-- The texts that are hashed. -/
def hashedTexts : Json → List String
  | .arr array => hashedTextsElements array
  | .obj map => hashedTextsMembers map
  | _ => []

def hashedTextsElements : List Json → List String
  | [] => []
  | element :: array => hashedTexts element ++ hashedTextsElements array

def hashedTextsMembers : List (String × Json) → List String
  | [] => []
  | (key, value) :: map =>
    (if isHashed type key then value.asStr.toList else hashedTexts value) ++ hashedTextsMembers map

end

variable {sha256 type} {key : String} {value : Json}

theorem hashed_member {text : String} (htext : (if isHashed type key then hashValue sha256 value
      else serialize sha256 type false value) = .ok text)
    (hvalue : ∀ s, serialize sha256 type false value = .ok s →
      ∃ v, hashed sha256 type value = .ok v ∧ s.toList = v.flat) :
    ∃ v, (if isHashed type key then hashedValue sha256 value
      else hashed sha256 type value) = .ok v ∧ text.toList = v.flat := by
  by_cases hkey : isHashed type key = true
  · rw [if_pos hkey] at htext
    rw [if_pos hkey, hashedValue, htext]
    exact ⟨.str text, rfl, by rw [Json.flat]⟩
  · rw [if_neg hkey] at htext
    rw [if_neg hkey]
    exact hvalue text htext

theorem toList_member (result key text : String) :
    (result ++ key ++ ":" ++ text).toList = result.toList ++
    (key.toList ++ ':' :: text.toList) := by
  rw [String.toList_append, String.toList_append, String.toList_append, append_assoc,
    append_assoc]
  rfl

mutual

theorem serialize_flat : (j : Json) → ∀ s, serialize sha256 type false j = .ok s →
    ∃ v, hashed sha256 type j = .ok v ∧ s.toList = v.flat
  | .null, s, h => by
    cases h
    exact ⟨.null, rfl, rfl⟩
  | .bool b, s, h => by
    cases h
    exact ⟨.bool b, rfl, by rw [Json.flat]⟩
  | .int i, s, h => by
    cases h
    exact ⟨.int i, rfl, by rw [Json.flat]⟩
  | .float t, s, h => by
    cases h
    exact ⟨.float t, rfl, by rw [Json.flat]⟩
  | .str t, s, h => by
    cases h
    exact ⟨.str t, rfl, by rw [Json.flat]⟩
  | .arr array, s, h => by
    rw [serialize] at h
    obtain ⟨texts, htexts, h⟩ := bind_eq_ok_iff.mp h
    cases h
    obtain ⟨es, hes, hflat⟩ := serializeElements_flat array texts htexts
    refine ⟨.arr es, by rw [hashed, hes]; rfl, ?_⟩
    rw [String.toList_intercalate, hflat, Json.flat_arr]
    rfl
  | .obj map, s, h => by
    rw [serialize] at h
    obtain ⟨ms, hms, hflat⟩ := serializeMembers_flat map "" false s h
    exact ⟨.obj ms, by rw [hashed, hms]; rfl, hflat⟩

theorem serializeElements_flat : (array : List Json) → ∀ texts,
    serializeElements sha256 type array = .ok texts →
    ∃ es, hashedElements sha256 type array = .ok es ∧
      texts.map String.toList = es.map Json.flat
  | [], texts, h => by
    cases h
    exact ⟨[], rfl, rfl⟩
  | element :: array, texts, h => by
    rw [serializeElements] at h
    obtain ⟨first, hfirst, h⟩ := bind_eq_ok_iff.mp h
    obtain ⟨rest, hrest, h⟩ := bind_eq_ok_iff.mp h
    cases h
    obtain ⟨v, hv, hflat⟩ := serialize_flat element first hfirst
    obtain ⟨es, hes, hflats⟩ := serializeElements_flat array rest hrest
    refine ⟨v :: es, by rw [hashedElements, hv, ok_bind, hes]; rfl, ?_⟩
    rw [map_cons, map_cons, hflat, hflats]

theorem serializeMembers_flat : (map : List (String × Json)) → ∀ result inMiddle s,
    serializeMembers sha256 type false result inMiddle map = .ok s →
    ∃ ms, hashedMembers sha256 type map = .ok ms ∧ s.toList = result.toList ++
      (if inMiddle then Json.flatMembers ms else Json.flat (.obj ms))
  | [], result, inMiddle, s, h => by
    cases h
    refine ⟨[], rfl, ?_⟩
    cases inMiddle with
    | true => exact (append_nil _).symm
    | false => exact (append_nil _).symm
  | (key, value) :: map, result, inMiddle, s, h => by
    rw [serializeMembers, Bool.false_and, if_neg Bool.false_ne_true] at h
    obtain ⟨text, htext, h⟩ := bind_eq_ok_iff.mp h
    obtain ⟨v, hv, hflat⟩ := hashed_member htext (serialize_flat value)
    obtain ⟨ms, hms, hflats⟩ := serializeMembers_flat map _ true s h
    refine ⟨(key, v) :: ms, by rw [hashedMembers, hv, ok_bind, hms]; rfl, ?_⟩
    rw [hflats, toList_member, hflat, if_pos rfl]
    cases inMiddle with
    | true =>
      rw [if_pos rfl, if_pos rfl, String.toList_append, Json.flatMembers]
      simp
    | false =>
      rw [if_neg Bool.false_ne_true, if_neg Bool.false_ne_true, Json.flat]
      simp

end

theorem serializeMembers_top (map : List (String × Json)) (result : String) (inMiddle : Bool) :
    serializeMembers sha256 type true result inMiddle map =
      serializeMembers sha256 type false result inMiddle
        (map.filter (fun m => !unsignedNames.contains m.1)) := by
  induction map generalizing result inMiddle with
  | nil => rfl
  | cons m map ih =>
    obtain ⟨key, value⟩ := m
    by_cases hkey : unsignedNames.contains key = true
    · rw [filter_cons_of_neg (by rw [hkey]; decide), serializeMembers, Bool.true_and,
        if_pos hkey, ih]
    · rw [filter_cons_of_pos (by rw [Bool.not_eq_true] at hkey; rw [hkey]; rfl),
        serializeMembers, serializeMembers, Bool.true_and, if_neg hkey, Bool.false_and,
        if_neg Bool.false_ne_true]
      simp only [ih]

theorem serialize_top (j : Json) :
    serialize sha256 type true j = serialize sha256 type false (signedPart j) := by
  cases j with
  | obj map =>
    rw [signedPart, serialize, serialize]
    exact serializeMembers_top map "" false
  | arr array =>
    have hsigned : signedPart (.arr array) = .arr array := rfl
    rw [hsigned, serialize, serialize]
  | _ => rfl

mutual

theorem serialize_ne_panic (isTopLevel : Bool) :
    (j : Json) → serialize sha256 type isTopLevel j ≠ .panic
  | .null | .bool _ | .int _ | .float _ | .str _ => by
    rw [serialize]
    exact ok_ne_panic _
  | .arr array => by
    rw [serialize]
    exact bind_ne_panic (serializeElements_ne_panic array)
      (fun _ => ok_ne_panic _)
  | .obj map => by
    rw [serialize]
    exact serializeMembers_ne_panic isTopLevel "" false map

theorem serializeElements_ne_panic :
    (array : List Json) → serializeElements sha256 type array ≠ .panic
  | [] => by
    rw [serializeElements]
    exact ok_ne_panic _
  | element :: array => by
    rw [serializeElements]
    refine bind_ne_panic (serialize_ne_panic false element) (fun _ => ?_)
    exact bind_ne_panic (serializeElements_ne_panic array) (fun _ => ok_ne_panic _)

theorem serializeMembers_ne_panic (isTopLevel : Bool) (result : String) (inMiddle : Bool) :
    (map : List (String × Json)) →
      serializeMembers sha256 type isTopLevel result inMiddle map ≠ .panic
  | [] => by
    rw [serializeMembers]
    exact ok_ne_panic _
  | (key, value) :: map => by
    rw [serializeMembers]
    by_cases hskip : (isTopLevel && unsignedNames.contains key) = true
    · rw [if_pos hskip]
      exact serializeMembers_ne_panic isTopLevel result inMiddle map
    · rw [if_neg hskip]
      refine bind_ne_panic ?_ (fun _ => serializeMembers_ne_panic isTopLevel _ true map)
      by_cases hhash : isHashed type key = true
      · rw [if_pos hhash, hashValue]
        split
        · exact ok_ne_panic _
        · exact err_ne_panic _
      · rw [if_neg hhash]
        exact serialize_ne_panic false value

end

variable {j : Json}

theorem serializeSignature_flat {s : String} (h : serializeSignature sha256 j = .ok s) :
    ∃ v, written sha256 j = .ok v ∧ s.toList = v.flat := by
  rw [serializeSignature, serialize_top] at h
  exact serialize_flat (signedPart j) s h

theorem member?_filter {p : String → Bool} {key : String} (h : p key = true)
    (members : List (String × Json)) :
    Json.member? key (members.filter (fun m => p m.1)) = Json.member? key members := by
  induction members with
  | nil => rfl
  | cons m members ih =>
    rw [filter_cons]
    by_cases hm : p m.1 = true
    · rw [if_pos hm, Json.member?_cons, Json.member?_cons, ih]
    · have hne : ¬ m.1 = key := fun he => hm (he ▸ h)
      rw [if_neg hm, Json.member?_cons, if_neg hne, ih]

theorem get_signedPart (h : unsignedNames.contains key = false) (j : Json) :
    (signedPart j).get key = j.get key := by
  cases j with
  | obj map =>
    have hfilter := @member?_filter (fun name => !unsignedNames.contains name) key
      (by rw [h]; rfl) map
    rw [signedPart, Json.get, Json.get, hfilter]
  | _ => rfl

theorem isHashed_of_notMem (h : hashedNames.contains key = false) :
    isHashed type key = false := by
  rw [isHashed, h, Bool.and_false]

theorem hashedMembers_cons {map ms : List (String × Json)}
    (h : hashedMembers sha256 type ((key, value) :: map) = .ok ms) :
    ∃ v rest, (if isHashed type key then hashedValue sha256 value
        else hashed sha256 type value) = .ok v ∧
      hashedMembers sha256 type map = .ok rest ∧ ms = (key, v) :: rest := by
  rw [hashedMembers] at h
  obtain ⟨v, hv, h⟩ := bind_eq_ok_iff.mp h
  obtain ⟨rest, hrest, h⟩ := bind_eq_ok_iff.mp h
  cases h
  exact ⟨v, rest, hv, hrest, rfl⟩

theorem member?_hashed (h : hashedNames.contains key = false) {map ms : List (String × Json)}
    (hms : hashedMembers sha256 type map = .ok ms) :
    hashed sha256 type ((Json.member? key map).getD .null) =
      .ok ((Json.member? key ms).getD .null) := by
  induction map generalizing ms with
  | nil =>
    cases hms
    rfl
  | cons m map ih =>
    obtain ⟨name, value⟩ := m
    obtain ⟨v, rest, hv, hrest, rfl⟩ := hashedMembers_cons hms
    rw [Json.member?_cons, Json.member?_cons]
    by_cases hname : name = key
    · have hnot : ¬ isHashed type name = true := by
        rw [hname, isHashed_of_notMem h]
        exact Bool.false_ne_true
      rw [if_neg hnot] at hv
      rw [if_pos hname, if_pos hname]
      exact hv
    · rw [if_neg hname, if_neg hname]
      exact ih hrest

theorem get_hashed {key : String} (h : hashedNames.contains key = false) {j v : Json}
    (hv : hashed sha256 type j = .ok v) : hashed sha256 type (j.get key) = .ok (v.get key) := by
  cases j with
  | obj map =>
    rw [hashed] at hv
    obtain ⟨ms, hms, hv⟩ := bind_eq_ok_iff.mp hv
    cases hv
    exact member?_hashed h hms
  | arr array =>
    rw [hashed] at hv
    obtain ⟨es, -, hv⟩ := bind_eq_ok_iff.mp hv
    cases hv
    rfl
  | _ =>
    cases hv
    rfl

theorem asStr_hashed {v : Json} (hv : hashed sha256 type j = .ok v) : v.asStr = j.asStr := by
  cases j with
  | obj map =>
    rw [hashed] at hv
    obtain ⟨ms, -, hv⟩ := bind_eq_ok_iff.mp hv
    cases hv
    rfl
  | arr array =>
    rw [hashed] at hv
    obtain ⟨es, -, hv⟩ := bind_eq_ok_iff.mp hv
    cases hv
    rfl
  | _ =>
    cases hv
    rfl

theorem requestType_written {v : Json} (h : written sha256 j = .ok v) :
    requestType v = requestType j := by
  have hop := @get_hashed _ _ "operation" (by decide) _ _ h
  rw [get_signedPart (by decide)] at hop
  exact asStr_hashed (@get_hashed _ _ "type" (by decide) _ _ hop)

/-- Two different texts have the same digest. -/
def Collides (sha256 : Bytes → Bytes) (texts texts' : List String) : Prop :=
  ∃ a ∈ texts, ∃ b ∈ texts', a ≠ b ∧ sha256 (Bytes.ofText a) = sha256 (Bytes.ofText b)

theorem hashValue_inj {value' : Json} {digest : String} (h : hashValue sha256 value = .ok digest)
    (h' : hashValue sha256 value' = .ok digest)
    (hapart : ¬ Collides sha256 value.asStr.toList value'.asStr.toList) : value = value' := by
  rw [hashValue] at h h'
  cases hs : value.asStr with
  | none =>
    rw [hs] at h
    cases h
  | some s =>
    cases hs' : value'.asStr with
    | none =>
      rw [hs'] at h'
      cases h'
    | some s' =>
      rw [hs] at h
      rw [hs'] at h'
      rw [hs, hs'] at hapart
      have hdigest := Bytes.toHex_injective (Outcome.ok.inj (h.trans h'.symm))
      have hsame : s = s' := by
        by_contra hne
        exact hapart ⟨s, mem_singleton_self s, s', mem_singleton_self s', hne, hdigest⟩
      rw [Json.asStr_eq_some.mp hs, Json.asStr_eq_some.mp hs', hsame]

theorem Collides.mono {texts texts' more more' : List String} (h : Collides sha256 texts texts')
    (hsub : ∀ a ∈ texts, a ∈ more) (hsub' : ∀ b ∈ texts', b ∈ more') :
    Collides sha256 more more' := by
  obtain ⟨a, ha, b, hb, hne, hsame⟩ := h
  exact ⟨a, hsub a ha, b, hsub' b hb, hne, hsame⟩

theorem eq_of_hashed_scalar {v : Json} (h : hashed sha256 type j = .ok v)
    (harray : v.asArray = none) (hobject : v.asObject = none) : j = v := by
  cases j with
  | arr array =>
    rw [hashed] at h
    obtain ⟨es, -, h⟩ := bind_eq_ok_iff.mp h
    cases h
    cases harray
  | obj map =>
    rw [hashed] at h
    obtain ⟨ms, -, h⟩ := bind_eq_ok_iff.mp h
    cases h
    cases hobject
  | _ =>
    cases h
    rfl

mutual

/-- Values with the same digests are the same when no two of the hashed texts collide. -/
theorem hashed_inj : (j j' : Json) → ∀ v, hashed sha256 type j = .ok v →
    hashed sha256 type j' = .ok v →
    ¬ Collides sha256 (hashedTexts type j) (hashedTexts type j') → j = j'
  | .arr array, j', v, h, h', hapart => by
    rw [hashed] at h
    obtain ⟨es, hes, h⟩ := bind_eq_ok_iff.mp h
    cases h
    cases j' with
    | arr array' =>
      rw [hashed] at h'
      obtain ⟨es', hes', h'⟩ := bind_eq_ok_iff.mp h'
      cases h'
      rw [hashedTexts, hashedTexts] at hapart
      rw [hashedElements_inj array array' es hes hes' hapart]
    | obj map' =>
      rw [hashed] at h'
      obtain ⟨ms', -, h'⟩ := bind_eq_ok_iff.mp h'
      cases h'
    | _ => cases h'
  | .obj map, j', v, h, h', hapart => by
    rw [hashed] at h
    obtain ⟨ms, hms, h⟩ := bind_eq_ok_iff.mp h
    cases h
    cases j' with
    | obj map' =>
      rw [hashed] at h'
      obtain ⟨ms', hms', h'⟩ := bind_eq_ok_iff.mp h'
      cases h'
      rw [hashedTexts, hashedTexts] at hapart
      rw [hashedMembers_inj map map' ms hms hms' hapart]
    | arr array' =>
      rw [hashed] at h'
      obtain ⟨es', -, h'⟩ := bind_eq_ok_iff.mp h'
      cases h'
    | _ => cases h'
  | .null, j', v, h, h', _ => by
    cases h
    exact (eq_of_hashed_scalar h' rfl rfl).symm
  | .bool b, j', v, h, h', _ => by
    cases h
    exact (eq_of_hashed_scalar h' rfl rfl).symm
  | .int i, j', v, h, h', _ => by
    cases h
    exact (eq_of_hashed_scalar h' rfl rfl).symm
  | .float t, j', v, h, h', _ => by
    cases h
    exact (eq_of_hashed_scalar h' rfl rfl).symm
  | .str t, j', v, h, h', _ => by
    cases h
    exact (eq_of_hashed_scalar h' rfl rfl).symm

theorem hashedElements_inj : (array array' : List Json) → ∀ es,
    hashedElements sha256 type array = .ok es → hashedElements sha256 type array' = .ok es →
    ¬ Collides sha256 (hashedTextsElements type array) (hashedTextsElements type array') →
    array = array'
  | [], [], es, _, _, _ => rfl
  | [], element' :: array', es, h, h', _ => by
    cases h
    rw [hashedElements] at h'
    obtain ⟨v, -, h'⟩ := bind_eq_ok_iff.mp h'
    obtain ⟨rest, -, h'⟩ := bind_eq_ok_iff.mp h'
    cases h'
  | element :: array, [], es, h, h', _ => by
    cases h'
    rw [hashedElements] at h
    obtain ⟨v, -, h⟩ := bind_eq_ok_iff.mp h
    obtain ⟨rest, -, h⟩ := bind_eq_ok_iff.mp h
    cases h
  | element :: array, element' :: array', es, h, h', hapart => by
    rw [hashedElements] at h h'
    obtain ⟨v, hv, h⟩ := bind_eq_ok_iff.mp h
    obtain ⟨rest, hrest, h⟩ := bind_eq_ok_iff.mp h
    obtain ⟨v', hv', h'⟩ := bind_eq_ok_iff.mp h'
    obtain ⟨rest', hrest', h'⟩ := bind_eq_ok_iff.mp h'
    cases h
    cases h'
    rw [hashedTextsElements, hashedTextsElements] at hapart
    have hfirst := hashed_inj element element' v hv hv' (fun hc => hapart
      (hc.mono (fun _ => mem_append_left _) (fun _ => mem_append_left _)))
    have hothers := hashedElements_inj array array' rest hrest hrest' (fun hc => hapart
      (hc.mono (fun _ => mem_append_right _) (fun _ => mem_append_right _)))
    rw [hfirst, hothers]

theorem hashedMembers_inj : (map map' : List (String × Json)) → ∀ ms,
    hashedMembers sha256 type map = .ok ms → hashedMembers sha256 type map' = .ok ms →
    ¬ Collides sha256 (hashedTextsMembers type map) (hashedTextsMembers type map') → map = map'
  | [], [], ms, _, _, _ => rfl
  | [], (key', value') :: map', ms, h, h', _ => by
    cases h
    obtain ⟨v, rest, -, -, he⟩ := hashedMembers_cons h'
    cases he
  | (key, value) :: map, [], ms, h, h', _ => by
    cases h'
    obtain ⟨v, rest, -, -, he⟩ := hashedMembers_cons h
    cases he
  | (key, value) :: map, (key', value') :: map', ms, h, h', hapart => by
    obtain ⟨v, rest, hv, hrest, rfl⟩ := hashedMembers_cons h
    obtain ⟨v', rest', hv', hrest', he⟩ := hashedMembers_cons h'
    cases he
    rw [hashedTextsMembers, hashedTextsMembers] at hapart
    have hothers := hashedMembers_inj map map' rest hrest hrest' (fun hc => hapart
      (hc.mono (fun _ => mem_append_right _) (fun _ => mem_append_right _)))
    have hfirst : value = value' := by
      have hvalue := fun hc => hapart (Collides.mono hc (fun _ => mem_append_left _)
        (fun _ => mem_append_left _))
      by_cases hkey : isHashed type key = true
      · rw [if_pos hkey] at hv hv' hvalue
        rw [if_pos hkey] at hvalue
        obtain ⟨digest, hdigest, hv⟩ := bind_eq_ok_iff.mp hv
        obtain ⟨digest', hdigest', hv'⟩ := bind_eq_ok_iff.mp hv'
        cases hv
        cases hv'
        exact hashValue_inj hdigest hdigest' hvalue
      · rw [if_neg hkey] at hv hv' hvalue
        rw [if_neg hkey] at hvalue
        exact hashed_inj value value' v hv hv' hvalue
    rw [hfirst, hothers]

end

/-- What is signed of two requests is of one kind, and none of its texts and names has a separator
in it. -/
def OfOneKind (sha256 : Bytes → Bytes) (j j' : Json) : Prop :=
  ∃ v v', written sha256 j = .ok v ∧ written sha256 j' = .ok v' ∧ v.clean = true ∧
    v'.clean = true ∧ Json.alike [] v v' = true

/-- A text that is hashed in one request and another that is hashed in the other have different
digests. -/
def DigestsApart (sha256 : Bytes → Bytes) (j j' : Json) : Prop :=
  ¬ Collides sha256 (hashedTexts (requestType j) (signedPart j))
    (hashedTexts (requestType j') (signedPart j'))

/-- A request that writes an attribute. -/
def attribRequest (raw : String) : Json :=
  .obj [("identifier", .str "L"),
    ("operation", .obj [("dest", .str "V"), ("raw", .str raw), ("type", .str attrib)]),
    ("reqId", .int 1), ("signature", .str "S")]

/-- A request with its members under the names that they have in an operation and beside it. -/
def nymRequest (operation rest : List (String × Json)) : Json :=
  .obj ([("identifier", .str "L"), ("operation", .obj operation)] ++ rest)

end IndySdk.Crypto
