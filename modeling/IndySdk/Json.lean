import Mathlib.Algebra.Group.Int.Defs
import Mathlib.Algebra.Group.Nat.Defs
import Mathlib.Tactic.Common

/-!
# JSON values

The value type of a JSON library. An object is a list of members in the iteration order of the
library's map. Indexing by a member name is total: a missing member, or a value that is not an
object, reads as `null`.
-/

open List

inductive Json where
  | null
  | bool (b : Bool)
  | int (i : Int)
  | float (text : String)
  | str (s : String)
  | arr (elements : List Json)
  | obj (members : List (String × Json))
  deriving Repr

namespace Json

mutual

protected def decEq : (a b : Json) → Decidable (a = b)
  | .null, .null => isTrue rfl
  | .bool a, .bool b => decidable_of_iff (a = b) (by simp)
  | .int a, .int b => decidable_of_iff (a = b) (by simp)
  | .float a, .float b => decidable_of_iff (a = b) (by simp)
  | .str a, .str b => decidable_of_iff (a = b) (by simp)
  | .arr a, .arr b =>
    have := Json.decEqElements a b
    decidable_of_iff (a = b) (by simp)
  | .obj a, .obj b =>
    have := Json.decEqMembers a b
    decidable_of_iff (a = b) (by simp)
  | .null, .bool _ | .null, .int _ | .null, .float _ | .null, .str _ | .null, .arr _
  | .null, .obj _ | .bool _, .null | .bool _, .int _ | .bool _, .float _ | .bool _, .str _
  | .bool _, .arr _ | .bool _, .obj _ | .int _, .null | .int _, .bool _ | .int _, .float _
  | .int _, .str _ | .int _, .arr _ | .int _, .obj _ | .float _, .null | .float _, .bool _
  | .float _, .int _ | .float _, .str _ | .float _, .arr _ | .float _, .obj _ | .str _, .null
  | .str _, .bool _ | .str _, .int _ | .str _, .float _ | .str _, .arr _ | .str _, .obj _
  | .arr _, .null | .arr _, .bool _ | .arr _, .int _ | .arr _, .float _ | .arr _, .str _
  | .arr _, .obj _ | .obj _, .null | .obj _, .bool _ | .obj _, .int _ | .obj _, .float _
  | .obj _, .str _ | .obj _, .arr _ => isFalse (by simp)

protected def decEqElements : (a b : List Json) → Decidable (a = b)
  | [], [] => isTrue rfl
  | [], _ :: _ | _ :: _, [] => isFalse (by simp)
  | x :: a, y :: b =>
    have := Json.decEq x y
    have := Json.decEqElements a b
    decidable_of_iff (x = y ∧ a = b) (by simp)

protected def decEqMembers : (a b : List (String × Json)) → Decidable (a = b)
  | [], [] => isTrue rfl
  | [], _ :: _ | _ :: _, [] => isFalse (by simp)
  | (k, x) :: a, (l, y) :: b =>
    have := Json.decEq x y
    have := Json.decEqMembers a b
    decidable_of_iff ((k = l ∧ x = y) ∧ a = b) (by simp)

end

instance : DecidableEq Json := Json.decEq

/-- The member of the given name in a list of members. -/
def member? (key : String) (members : List (String × Json)) : Option Json :=
  (members.find? (fun m => m.1 = key)).map Prod.snd

/-- Indexing by a member name, with `null` for anything missing. -/
def get (key : String) : Json → Json
  | .obj members => (member? key members).getD .null
  | _ => .null

def isNull : Json → Bool
  | .null => true
  | _ => false

def asStr : Json → Option String
  | .str s => some s
  | _ => none

def asArray : Json → Option (List Json)
  | .arr elements => some elements
  | _ => none

def asObject : Json → Option (List (String × Json))
  | .obj members => some members
  | _ => none

/-- The value as an unsigned 64-bit integer. -/
def asU64 : Json → Option ℕ
  | .int i => if 0 ≤ i ∧ i < 2 ^ 64 then some i.toNat else none
  | _ => none

/-- Drop the member of the given name; values that are not objects are left alone. -/
def remove (key : String) : Json → Json
  | .obj members => .obj (members.filter (fun m => m.1 ≠ key))
  | j => j

/-- Change the member of the given name, where there is one. -/
def modify (key : String) (f : Json → Json) : Json → Json
  | .obj members => .obj (members.map (fun m => if m.1 = key then (m.1, f m.2) else m))
  | j => j

def isObject : Json → Bool
  | .obj _ => true
  | _ => false

/-- Insert a member at its place in the order of the names, over a member of the same name. -/
def putMember (key : String) (value : Json) : List (String × Json) → List (String × Json)
  | [] => [(key, value)]
  | m :: members =>
    if key = m.1 then (key, value) :: members
    else if key < m.1 then (key, value) :: m :: members
    else m :: putMember key value members

/-- Assign a member of an object. -/
def put (j : Json) (key : String) (value : Json) : Json :=
  match j with
  | .obj members => .obj (putMember key value members)
  | j => j

mutual

/-- The value of a text whose objects may repeat names: the last member of a name counts. -/
def toValue : Json → Json
  | .arr elements => .arr (toValues elements)
  | .obj members => .obj (toMembers members)
  | j => j

def toValues : List Json → List Json
  | [] => []
  | j :: elements => toValue j :: toValues elements

def toMembers : List (String × Json) → List (String × Json)
  | [] => []
  | (key, j) :: members =>
    if (member? key (toMembers members)).isSome then toMembers members
    else putMember key (toValue j) (toMembers members)

end

/-- A character as it stands in a quoted text. -/
def escape (c : Char) : List Char :=
  if c = '\x22' ∨ c = '\x5c' then ['\x5c', c]
  else if c = '\x08' then ['\x5c', 'b']
  else if c = '\x0c' then ['\x5c', 'f']
  else if c = '\n' then ['\x5c', 'n']
  else if c = '\r' then ['\x5c', 'r']
  else if c = '\t' then ['\x5c', 't']
  else if c.toNat < 32 then
    ['\x5c', 'u', '0', '0', Nat.digitChar (c.toNat / 16), Nat.digitChar (c.toNat % 16)]
  else [c]

def quote (s : String) : String := "\"" ++ String.ofList (s.toList.flatMap escape) ++ "\""

mutual

/-- The compact text of a value. -/
def text : Json → String
  | .null => "null"
  | .bool b => if b then "true" else "false"
  | .int i => if i < 0 then "-" ++ i.natAbs.repr else i.natAbs.repr
  | .float t => t
  | .str s => quote s
  | .arr elements => "[" ++ ",".intercalate (textElements elements) ++ "]"
  | .obj members => "\x7b" ++ ",".intercalate (textMembers members) ++ "\x7d"

def textElements : List Json → List String
  | [] => []
  | j :: elements => text j :: textElements elements

def textMembers : List (String × Json) → List String
  | [] => []
  | (key, j) :: members => (quote key ++ ":" ++ text j) :: textMembers members

end

/-- Replace the values of some members by `null`. -/
def forget (keys : List String) : Json → Json
  | .obj members => .obj (members.map (fun m => if m.1 ∈ keys then (m.1, .null) else m))
  | j => j

variable {j value : Json} {key other : String} {members : List (String × Json)}

theorem asStr_eq_some {s : String} : j.asStr = some s ↔ j = .str s := by
  cases j <;> simp [asStr]

theorem exists_obj_of_get_ne_null (h : j.get key ≠ .null) :
    ∃ members, j = .obj members := by
  cases j <;> simp_all [get]

theorem member?_cons (key : String) (m : String × Json) (members : List (String × Json)) :
    member? key (m :: members) = if m.1 = key then some m.2 else member? key members := by
  rw [member?, find?_cons]
  by_cases h : m.1 = key
  · rw [if_pos h, decide_eq_true h]
    rfl
  · rw [if_neg h, decide_eq_false h]
    rfl

theorem member?_eq_none_iff :
    member? key members = none ↔ key ∉ members.map Prod.fst := by
  induction members with
  | nil => simp [member?]
  | cons m members ih =>
    rw [member?_cons, map_cons, mem_cons, not_or]
    by_cases h : m.1 = key
    · simp [h]
    · rw [if_neg h, ih]
      exact ⟨fun hm => ⟨fun he => h he.symm, hm⟩, fun hm => hm.2⟩

theorem member?_putMember_self (key : String) (value : Json) (members : List (String × Json)) :
    member? key (putMember key value members) = some value := by
  induction members with
  | nil => rw [putMember, member?_cons, if_pos rfl]
  | cons m members ih =>
    rw [putMember]
    split_ifs with he hlt
    · rw [member?_cons, if_pos rfl]
    · rw [member?_cons, if_pos rfl]
    · rw [member?_cons, if_neg (fun h => he h.symm), ih]

theorem member?_putMember_of_ne (h : other ≠ key) (value : Json) (members : List (String × Json)) :
    member? other (putMember key value members) = member? other members := by
  induction members with
  | nil => rw [putMember, member?_cons, if_neg h.symm]
  | cons m members ih =>
    rw [putMember]
    split_ifs with he hlt
    · rw [member?_cons, member?_cons, if_neg h.symm, if_neg (by rw [← he]; exact h.symm)]
    · rw [member?_cons, if_neg h.symm]
    · rw [member?_cons, member?_cons, ih]

theorem mem_keys_putMember :
    other ∈ (putMember key value members).map Prod.fst ↔
      other = key ∨ other ∈ members.map Prod.fst := by
  by_cases h : other = key
  · subst h
    have hput := member?_putMember_self other value members
    refine iff_of_true ?_ (.inl rfl)
    by_contra hn
    rw [member?_eq_none_iff.mpr hn] at hput
    cases hput
  · rw [or_iff_right h, ← not_iff_not, ← member?_eq_none_iff, ← member?_eq_none_iff,
      member?_putMember_of_ne h]

theorem mem_putMember {m : String × Json} (h : m ∈ putMember key value members) :
    m = (key, value) ∨ m ∈ members := by
  induction members with
  | nil => exact .inl (mem_singleton.mp h)
  | cons m' members ih =>
    rw [putMember] at h
    split_ifs at h
    · rcases mem_cons.mp h with rfl | hold
      · exact .inl rfl
      · exact .inr (mem_cons_of_mem m' hold)
    · rcases mem_cons.mp h with rfl | hold
      · exact .inl rfl
      · exact .inr hold
    · rcases mem_cons.mp h with rfl | hold
      · exact .inr mem_cons_self
      · rcases ih hold with hnew | hrest
        · exact .inl hnew
        · exact .inr (mem_cons_of_mem m' hrest)

theorem mem_of_member? (h : member? key members = some value) : (key, value) ∈ members := by
  induction members with
  | nil => cases h
  | cons m members ih =>
    rw [member?_cons] at h
    split_ifs at h with hkey
    · rw [← hkey, ← Option.some.inj h]
      exact mem_cons_self
    · exact mem_cons_of_mem m (ih h)

theorem putMember_sorted (h : (members.map Prod.fst).Pairwise (· < ·)) :
    ((putMember key value members).map Prod.fst).Pairwise (· < ·) := by
  induction members with
  | nil => exact pairwise_singleton _ _
  | cons m members ih =>
    rw [map_cons, pairwise_cons] at h
    rw [putMember]
    split_ifs with he hlt
    · rw [map_cons, pairwise_cons, he]
      exact h
    · rw [map_cons, pairwise_cons, map_cons, pairwise_cons]
      refine ⟨?_, h⟩
      intro other hother
      rcases mem_cons.mp hother with rfl | hother
      · exact hlt
      · exact String.lt_trans hlt (h.1 other hother)
    · rw [map_cons, pairwise_cons]
      refine ⟨?_, ih h.2⟩
      intro other hother
      rcases mem_keys_putMember.mp hother with rfl | hother
      · by_contra hle
        exact he (String.le_antisymm hle hlt)
      · exact h.1 other hother

theorem toMembers_sorted (members : List (String × Json)) :
    ((toMembers members).map Prod.fst).Pairwise (· < ·) := by
  induction members with
  | nil => exact List.Pairwise.nil
  | cons m members ih =>
    obtain ⟨key, j⟩ := m
    rw [toMembers]
    split_ifs with h
    · exact ih
    · exact putMember_sorted ih

theorem nodup_of_sorted {names : List String} (h : names.Pairwise (· < ·)) : names.Nodup :=
  h.imp String.ne_of_lt

/-- Members in the order of their names are known from their lookup. -/
theorem eq_of_sorted {members' : List (String × Json)} (h : (members.map Prod.fst).Pairwise (· < ·))
    (h' : (members'.map Prod.fst).Pairwise (· < ·))
    (hmember : ∀ key, member? key members = member? key members') : members = members' := by
  induction members generalizing members' with
  | nil =>
    cases members' with
    | nil => rfl
    | cons m' members' =>
      have hname := hmember m'.1
      rw [member?_cons, if_pos rfl] at hname
      cases hname
  | cons m members ih =>
    cases members' with
    | nil =>
      have hname := hmember m.1
      rw [member?_cons, if_pos rfl] at hname
      cases hname
    | cons m' members' =>
      rw [map_cons, pairwise_cons] at h h'
      have hfirst : ∀ (name : String) (l : List (String × Json)),
          (∀ other ∈ l.map Prod.fst, name < other) → member? name l = none := by
        intro name l hl
        exact member?_eq_none_iff.mpr (fun hmem => String.lt_irrefl name (hl name hmem))
      have hname : m.1 = m'.1 := by
        by_contra hne
        have hm := hmember m.1
        have hm' := hmember m'.1
        rw [member?_cons, if_pos rfl, member?_cons, if_neg (fun he => hne he.symm)] at hm
        rw [member?_cons, if_neg hne, member?_cons, if_pos rfl] at hm'
        have hlt : m'.1 < m.1 := by
          by_contra hle
          have hmem : m.1 ∈ members'.map Prod.fst := by
            by_contra hnone
            rw [member?_eq_none_iff.mpr hnone] at hm
            cases hm
          exact hle (h'.1 m.1 hmem)
        have hmem' : m'.1 ∈ members.map Prod.fst := by
          by_contra hnone
          rw [member?_eq_none_iff.mpr hnone] at hm'
          cases hm'
        exact String.lt_asymm hlt (h.1 m'.1 hmem')
      have hvalue : m.2 = m'.2 := by
        have hm := hmember m.1
        rw [member?_cons, if_pos rfl, member?_cons, if_pos hname.symm, Option.some_inj] at hm
        exact hm
      rw [Prod.ext hname hvalue, ih h.2 h'.2 ?_]
      intro key
      by_cases hkey : m.1 = key
      · rw [← hkey, hfirst m.1 members h.1, hname, hfirst m'.1 members' h'.1]
      · have hm := hmember key
        rwa [member?_cons, if_neg hkey, member?_cons, if_neg (by rw [← hname]; exact hkey)] at hm

theorem member?_filter_ne (key other : String) (members : List (String × Json)) :
    member? other (members.filter (fun m => m.1 ≠ key)) =
      if other = key then none else member? other members := by
  induction members with
  | nil =>
    rw [filter_nil]
    exact (ite_self _).symm
  | cons m members ih =>
    rw [filter_cons]
    by_cases hm : m.1 = key
    · rw [if_neg (by simp [hm]), ih, member?_cons]
      by_cases ho : other = key
      · rw [if_pos ho, if_pos ho]
      · rw [if_neg ho, if_neg ho, if_neg (fun he => ho (he.symm.trans hm))]
    · rw [if_pos (by simp [hm]), member?_cons, member?_cons, ih]
      by_cases ho : m.1 = other
      · rw [if_pos ho, if_pos ho, if_neg (fun he => hm (ho.trans he))]
      · rw [if_neg ho, if_neg ho]

theorem isObject_put (h : j.isObject = true) :
    (j.put key value).isObject = true := by
  cases j with
  | obj members => rfl
  | _ => cases h

theorem get_put_self (h : j.isObject = true) :
    (j.put key value).get key = value := by
  cases j with
  | obj members =>
    rw [put, get, member?_putMember_self]
    rfl
  | _ => cases h

theorem get_put_of_ne (hne : other ≠ key) :
    (j.put key value).get other = j.get other := by
  cases j with
  | obj members => rw [put, get, get, member?_putMember_of_ne hne]
  | _ => rfl

theorem exists_member?_toMembers (h : member? key (toMembers members) = some value) :
    ∃ j, value = toValue j := by
  induction members with
  | nil => cases h
  | cons m members ih =>
    obtain ⟨name, j⟩ := m
    rw [toMembers] at h
    split_ifs at h with hs
    · exact ih h
    · by_cases hk : key = name
      · rw [hk, member?_putMember_self, Option.some_inj] at h
        exact ⟨j, h.symm⟩
      · rw [member?_putMember_of_ne hk] at h
        exact ih h

theorem toValue_null : toValue .null = .null := by
  rw [toValue] <;> simp

theorem exists_get_toValue (key : String) (j : Json) :
    ∃ j', (toValue j).get key = toValue j' := by
  cases j with
  | obj members =>
    rw [toValue, get]
    cases h : member? key (toMembers members) with
    | none => exact ⟨.null, by rw [toValue_null]; rfl⟩
    | some value => exact exists_member?_toMembers h
  | _ => exact ⟨.null, by simp [toValue, get]⟩

theorem sorted_of_toValue (h : toValue j = .obj members) :
    (members.map Prod.fst).Pairwise (· < ·) := by
  cases j with
  | obj ms =>
    rw [toValue, Json.obj.injEq] at h
    rw [← h]
    exact toMembers_sorted ms
  | _ => simp [toValue] at h

theorem keys_nodup_of_toValue (h : toValue j = .obj members) : (members.map Prod.fst).Nodup :=
  nodup_of_sorted (sorted_of_toValue h)

theorem keys_forget (keys : List String) (members : List (String × Json)) :
    (members.map (fun m => if m.1 ∈ keys then (m.1, Json.null) else m)).map Prod.fst =
      members.map Prod.fst := by
  rw [map_map]
  apply map_congr_left
  intro m _
  rw [Function.comp_apply, apply_ite Prod.fst, ite_self]

theorem members_eq_of_forget {keys : List String} {members members' : List (String × Json)}
    (hnodup : (members.map Prod.fst).Nodup)
    (hforget : members.map (fun m => if m.1 ∈ keys then (m.1, Json.null) else m) =
      members'.map (fun m => if m.1 ∈ keys then (m.1, Json.null) else m))
    (hkeys : ∀ key ∈ keys, (member? key members).getD .null = (member? key members').getD .null) :
    members = members' := by
  have hnames := congrArg (List.map Prod.fst) hforget
  rw [keys_forget, keys_forget] at hnames
  induction members generalizing members' with
  | nil => exact (map_eq_nil_iff.mp hforget.symm).symm
  | cons m members ih =>
    cases members' with
    | nil => cases hforget
    | cons m' members' =>
      obtain ⟨name, value⟩ := m
      obtain ⟨name', value'⟩ := m'
      simp only [map_cons, List.cons.injEq, nodup_cons] at hforget hnames hnodup
      obtain ⟨rfl, htail⟩ := hnames
      have hhead : value = value' := by
        by_cases hmem : name ∈ keys
        · have hvalue := hkeys name hmem
          rwa [member?_cons, member?_cons, if_pos rfl, if_pos rfl] at hvalue
        · have hpair := hforget.1
          rw [if_neg hmem, if_neg hmem] at hpair
          exact (Prod.mk.inj hpair).2
      rw [hhead, ih hnodup.2 hforget.2 ?_ htail]
      intro key hkey
      by_cases hname : name = key
      · have hfresh : key ∉ members.map Prod.fst := hname ▸ hnodup.1
        have hfresh' : key ∉ members'.map Prod.fst := htail ▸ hfresh
        rw [member?_eq_none_iff.mpr hfresh, member?_eq_none_iff.mpr hfresh']
      · have hvalue := hkeys key hkey
        rwa [member?_cons, member?_cons, if_neg hname, if_neg hname] at hvalue

theorem eq_of_forget {keys : List String} {j' : Json}
    (hforget : (toValue j).forget keys = (toValue j').forget keys)
    (hkeys : ∀ key ∈ keys, (toValue j).get key = (toValue j').get key) :
    toValue j = toValue j' := by
  cases h : toValue j with
  | obj members =>
    have hnodup := keys_nodup_of_toValue h
    rw [h] at hforget hkeys
    cases h' : toValue j' with
    | obj members' =>
      rw [h'] at hforget hkeys
      simp only [forget, Json.obj.injEq] at hforget
      rw [members_eq_of_forget hnodup hforget hkeys]
    | _ => simp [h', forget] at hforget
  | _ =>
    rw [h] at hforget
    cases h' : toValue j' with
    | obj members' => simp [h', forget] at hforget
    | _ => simp_all [forget]

end Json
