import IndySdk.MessageTypes

/-!
# Message types that are read back

The text of a type is read as it was written when its family and its name have neither a slash nor a
line break. Whether the same family is read depends on the names that the reader knows: the family
of credential exchange writes another one, and a payload kind of an arbitrary name may have the name
of another family.
-/

namespace IndySdk

open List

namespace MessageType

open GreedyPattern

variable {beyondAscii : Char → Bool} {did family version type : String} {F G : Type}

/-- A part of a type that the pattern does not split. -/
def Plain (part : String) : Prop := '/' ∉ part.toList ∧ '\n' ∉ part.toList

instance (part : String) : Decidable (Plain part) := inferInstanceAs (Decidable (_ ∧ _))

theorem isAny_iff {c : Char} : isAny c = true ↔ c ≠ '\n' := bne_iff_ne

theorem all_isAny_iff {text : List Char} : (∀ c ∈ text, isAny c = true) ↔ '\n' ∉ text := by
  constructor
  · intro h hmem
    exact isAny_iff.mp (h '\n' hmem) rfl
  · intro h c hc
    exact isAny_iff.mpr (fun he => h (he ▸ hc))

def Identifies (beyondAscii : Char → Bool) (did : String) : Prop :=
  ∀ c ∈ did.toList, (isWord beyondAscii c || c == ':') = true

theorem capture_plain (hdid : Identifies beyondAscii did) (hfamily : Plain family)
    (hversion : Plain version) (htype : Plain type) :
    capture beyondAscii (did ++ ";spec/" ++ family ++ "/" ++ version ++ "/" ++ type) =
      some (did, family, version, type) := by
  have hlast : matchFrom [.run isAny] type.toList = some [type.toList] :=
    matchFrom_all (all_isAny_iff.mpr htype.2)
  have hcount : type.toList.count '/' = 0 := count_eq_zero.mpr htype.1
  have hthird := @matchFrom_delimited _ _ _ _ _ _ _ '/' (all_isAny_iff.mpr hversion.2) hlast
    (by rw [hcount]; exact Nat.zero_le _)
  have hcount' : (version.toList ++ '/' :: type.toList).count '/' = 1 := by
    rw [count_append, count_cons_self, count_eq_zero.mpr hversion.1, hcount]
  have hsecond := @matchFrom_delimited _ _ _ _ _ _ _ '/' (all_isAny_iff.mpr hfamily.2) hthird
    (by rw [hcount']; exact Nat.le_refl 1)
  have hcount'' :
      (family.toList ++ '/' :: (version.toList ++ '/' :: type.toList)).count '/' = 2 := by
    rw [count_append, count_cons_self, count_eq_zero.mpr hfamily.1, hcount']
  have hspec : '\n' ∉ "spec".toList := by decide
  have hfirst := @matchFrom_delimited _ _ _ _ _ _ _ '/' (all_isAny_iff.mpr hspec) hsecond
    (by rw [hcount'']; exact Nat.le_refl 2)
  have hsemicolon : (isWord beyondAscii ';' || ';' == ':') = false := rfl
  have hwhole := captures_of_matchFrom (matchFrom_excluded hdid hfirst hsemicolon)
  have htext : (did ++ ";spec/" ++ family ++ "/" ++ version ++ "/" ++ type).toList =
      did.toList ++ ';' :: ("spec".toList ++ '/' :: (family.toList ++ '/' ::
        (version.toList ++ '/' :: type.toList))) := by
    simp [String.toList_append]
  rw [capture, htext, pattern, hwhole]
  simp only [String.ofList_toList]

/-- A name that is read has neither a slash nor a line break. -/
theorem plain_of_capture {text : String}
    (h : capture beyondAscii text = some (did, family, version, type)) : Plain type := by
  rw [capture] at h
  split at h
  · rename_i did' spec family' version' type' hcaptures
    cases h
    obtain ⟨suffix, hmatch⟩ := exists_of_captures hcaptures
    obtain ⟨rest, -, -, hmatch⟩ := matchFrom_run_sound hmatch
    obtain ⟨rest, -, hmatch⟩ := matchFrom_one_sound hmatch
    have hspec := hmatch
    obtain ⟨rest₁, rfl, hall, hmatch⟩ := matchFrom_run_sound hmatch
    obtain ⟨rest₁, rfl, hmatch⟩ := matchFrom_one_sound hmatch
    obtain ⟨rest₂, rfl, hfamily, hmatch⟩ := matchFrom_run_sound hmatch
    obtain ⟨rest₂, rfl, hmatch⟩ := matchFrom_one_sound hmatch
    obtain ⟨rest₃, rfl, hversion, hmatch⟩ := matchFrom_run_sound hmatch
    obtain ⟨rest₃, rfl, hmatch⟩ := matchFrom_one_sound hmatch
    obtain ⟨rest₄, rfl, htype, -⟩ := matchFrom_run_sound hmatch
    rw [Plain, String.toList_ofList]
    refine ⟨fun hslash => ?_, all_isAny_iff.mp htype⟩
    -- with a slash in the name the first run could have been longer
    obtain ⟨front, back, rfl⟩ := append_of_mem hslash
    have hback : (matchFrom [.run isAny] (back ++ rest₄)).isSome :=
      isSome_matchFrom_run (fun c hc => htype c (by simp [hc])) rfl
    have hfront : (matchFrom [.run isAny, .one '/', .run isAny]
        (front ++ '/' :: (back ++ rest₄))).isSome :=
      isSome_matchFrom_run (fun c hc => htype c (by simp [hc])) (by rwa [matchFrom_one])
    have hrest : (matchFrom [.run isAny, .one '/', .run isAny, .one '/', .run isAny]
        (version' ++ '/' :: (front ++ '/' :: (back ++ rest₄)))).isSome :=
      isSome_matchFrom_run hversion (by rwa [matchFrom_one])
    have hlonger : ∀ c ∈ spec ++ '/' :: family', isAny c = true := by
      intro c hc
      rcases mem_append.mp hc with hc | hc
      · exact hall c hc
      · rcases mem_cons.mp hc with rfl | hc
        · rfl
        · exact hfamily c hc
    have hle := @length_le_of_matchFrom _ isAny
      ('/' :: (version' ++ '/' :: (front ++ '/' :: (back ++ rest₄)))) (spec ++ '/' :: family') _ _
      (.one '/' :: [.run isAny, .one '/', .run isAny, .one '/', .run isAny]) spec hlonger
      (by rwa [matchFrom_one]) (by simpa using hspec)
    rw [length_append, length_cons] at hle
    omega
  · cases h

def Parts.map (f : F → G) (m : Parts F) : Parts G := { m with family := f m.family }

variable {parse : String → Except String (String × String × String × String)}
  {familyName : F → String} {ofName : String → G} {m : Parts F}

/-- A written type is read as the type with another family exactly when its name is not split and
this is the family that is read for the name of its own. -/
theorem read_write_iff (beyondAscii : Char → Bool)
    (hparse : ∀ text parts, parse text = .ok parts ↔ capture beyondAscii text = some parts)
    (hdid : Identifies beyondAscii m.did) (hversion : Plain m.version)
    (hfamily : Plain m.type → Plain (familyName m.family)) (f : F → G) :
    read parse ofName (write familyName m) = .ok (m.map f) ↔
      Plain m.type ∧ ofName (familyName m.family) = f m.family := by
  constructor
  · intro h
    have hread : (parse (m.did ++ ";spec/" ++ familyName m.family ++ "/" ++ m.version ++ "/" ++
        m.type) >>= fun parts =>
          pure (⟨parts.1, ofName parts.2.1, parts.2.2.1, parts.2.2.2⟩ : Parts G)) =
        .ok (m.map f) := h
    cases hparts : parse (m.did ++ ";spec/" ++ familyName m.family ++ "/" ++ m.version ++ "/" ++
        m.type) with
    | error e =>
      rw [hparts] at hread
      cases hread
    | ok parts =>
      obtain ⟨did, family, version, type⟩ := parts
      rw [hparts] at hread
      have hsame : (⟨did, ofName family, version, type⟩ : Parts G) = m.map f :=
        Except.ok.inj hread
      have hcapture := (hparse _ _).mp hparts
      have htype : type = m.type := congrArg Parts.type hsame
      have hplain : Plain m.type := htype ▸ plain_of_capture hcapture
      rw [capture_plain hdid (hfamily hplain) hversion hplain] at hcapture
      cases hcapture
      exact ⟨hplain, congrArg Parts.family hsame⟩
  · rintro ⟨hplain, hsame⟩
    have hparts := (hparse _ _).mpr (capture_plain hdid (hfamily hplain) hversion hplain)
    change (parse (m.did ++ ";spec/" ++ familyName m.family ++ "/" ++ m.version ++ "/" ++
        m.type) >>= fun parts =>
          pure (⟨parts.1, ofName parts.2.1, parts.2.2.1, parts.2.2.2⟩ : Parts G)) = _
    rw [hparts, Parts.map, ← hsame]
    rfl

theorem did_identifies (beyondAscii : Char → Bool) :
    Identifies beyondAscii "did:sov:123456789abcdefghi1234" := by
  have hall : "did:sov:123456789abcdefghi1234".toList.all
      (fun c => c.isAlphanum || c == ':') = true := by decide
  have hascii := all_eq_true.mp hall
  intro c hc
  rcases Bool.or_eq_true_iff.mp (hascii c hc) with h | h
  · rw [isWord, h]
    rfl
  · rw [h, Bool.or_true]

theorem exchange_plain : Plain "credential_exchange" := by decide

/-- The names that the readers know. -/
def familyNames : List String :=
  ["routing", "onboarding", "pairwise", "configs", "credential-exchange"]

end MessageType

open MessageType

/-! ### Families -/

namespace Vcx.MessageFamilies

def toAgency : MessageFamilies → Agency.MessageFamilies
  | .routing => .routing
  | .onboarding => .onboarding
  | .pairwise => .pairwise
  | .configs => .configs
  | .credentialExchange => .credentialExchange
  | .unknown family => .other family

/-- The family whose name is read as this family. -/
def ReadAlike : MessageFamilies → Prop
  | .credentialExchange => False
  | .unknown family => family ∉ familyNames
  | _ => True

end Vcx.MessageFamilies

namespace Agency.MessageFamilies

def toVcx : MessageFamilies → Vcx.MessageFamilies
  | .routing => .routing
  | .onboarding => .onboarding
  | .pairwise => .pairwise
  | .configs => .configs
  | .credentialExchange => .credentialExchange
  | .other family => .unknown family

def ReadAlike : MessageFamilies → Prop
  | .credentialExchange => False
  | .other family => family ∉ familyNames
  | _ => True

end Agency.MessageFamilies

namespace Vcx.MessageFamilies

theorem ofString_eq_unknown_iff {family : String} :
    ofString family = .unknown family ↔ family ∉ familyNames := by
  rw [ofString]
  split_ifs with h₁ h₂ h₃ h₄ h₅ <;> simp [familyNames, *]

theorem ofString_toString_iff (family : MessageFamilies) :
    ofString family.toString = family ↔ family.ReadAlike := by
  cases family with
  | unknown family => exact ofString_eq_unknown_iff
  | credentialExchange => exact iff_of_false (by decide) id
  | routing => exact iff_of_true (by decide) trivial
  | onboarding => exact iff_of_true (by decide) trivial
  | pairwise => exact iff_of_true (by decide) trivial
  | configs => exact iff_of_true (by decide) trivial

theorem version_eq (family : MessageFamilies) : family.version = "1.0" := by
  cases family <;> rfl

theorem toAgency_injective : Function.Injective toAgency := by
  intro family family' h
  cases family <;> cases family' <;> cases h <;> rfl

theorem agency_ofString (family : String) :
    Agency.MessageFamilies.ofString family = (ofString family).toAgency := by
  rw [Agency.MessageFamilies.ofString, ofString]
  split_ifs <;> rfl

theorem agency_ofString_toString_iff (family : MessageFamilies) :
    Agency.MessageFamilies.ofString family.toString = family.toAgency ↔ family.ReadAlike := by
  rw [agency_ofString, toAgency_injective.eq_iff]
  exact family.ofString_toString_iff

end Vcx.MessageFamilies

namespace Agency.MessageFamilies

theorem version_eq (family : MessageFamilies) : family.version = "1.0" := by
  cases family <;> rfl

theorem toVcx_toAgency (family : MessageFamilies) : family.toVcx.toAgency = family := by
  cases family <;> rfl

theorem toString_toVcx (family : MessageFamilies) : family.toVcx.toString = family.toString := by
  cases family <;> rfl

theorem readAlike_toVcx (family : MessageFamilies) : family.toVcx.ReadAlike ↔ family.ReadAlike := by
  cases family <;> exact Iff.rfl

theorem vcx_ofString_toString_iff (family : MessageFamilies) :
    Vcx.MessageFamilies.ofString family.toString = family.toVcx ↔ family.ReadAlike := by
  rw [← family.toString_toVcx, ← family.readAlike_toVcx]
  exact family.toVcx.ofString_toString_iff

theorem ofString_toString_iff (family : MessageFamilies) :
    ofString family.toString = family ↔ family.ReadAlike := by
  have h := family.toVcx.agency_ofString_toString_iff
  rwa [family.toString_toVcx, family.readAlike_toVcx, family.toVcx_toAgency] at h

end Agency.MessageFamilies

/-! ### What the builders make -/

theorem Vcx.parseMessageType_eq_ok (beyondAscii : Char → Bool) (text : String)
    (parts : String × String × String × String) :
    parseMessageType beyondAscii text = .ok parts ↔ capture beyondAscii text = some parts := by
  rw [parseMessageType]
  cases capture beyondAscii text <;> simp

theorem Agency.parseMessageType_eq_ok (beyondAscii : Char → Bool) (text : String)
    (parts : String × String × String × String) :
    parseMessageType beyondAscii text = .ok parts ↔ capture beyondAscii text = some parts := by
  rw [parseMessageType]
  cases capture beyondAscii text <;> simp

namespace Vcx

variable {beyondAscii : Char → Bool}

/-- A type of the library that the library and the cloud agent read as it is. -/
structure Faithful (beyondAscii : Char → Bool) (m : MessageTypeV2) : Prop where
  own : MessageTypeV2.deserialize beyondAscii m.serialize = .ok m
  agency : Agency.MessageTypeV2.deserialize beyondAscii m.serialize =
    .ok (m.map MessageFamilies.toAgency)

theorem faithful_iff {m : MessageTypeV2} (hdid : m.did = MessageTypes.did)
    (hversion : m.version = "1.0") (hfamily : Plain m.type → Plain m.family.toString) :
    Faithful beyondAscii m ↔ Plain m.type ∧ m.family.ReadAlike := by
  have hidentifies : Identifies beyondAscii m.did := hdid ▸ did_identifies beyondAscii
  have hplain : Plain m.version := hversion ▸ by decide
  have hown : MessageTypeV2.deserialize beyondAscii m.serialize = .ok m ↔
      Plain m.type ∧ MessageFamilies.ofString m.family.toString = m.family :=
    read_write_iff beyondAscii (parseMessageType_eq_ok beyondAscii) hidentifies hplain hfamily id
  have hagency : Agency.MessageTypeV2.deserialize beyondAscii m.serialize =
      .ok (m.map MessageFamilies.toAgency) ↔ Plain m.type ∧
        Agency.MessageFamilies.ofString m.family.toString = m.family.toAgency :=
    read_write_iff beyondAscii (Agency.parseMessageType_eq_ok beyondAscii) hidentifies hplain
      hfamily MessageFamilies.toAgency
  rw [m.family.ofString_toString_iff] at hown
  rw [m.family.agency_ofString_toString_iff] at hagency
  exact ⟨fun h => hown.mp h.own, fun h => ⟨hown.mpr h, hagency.mpr h⟩⟩

theorem A2AMessageKinds.name_plain (kind : A2AMessageKinds) : Plain kind.name := by
  cases kind
  all_goals
    dsimp only [A2AMessageKinds.name]
    rw [Plain, String.toList_ofList]
    decide

theorem A2AMessageKinds.family_plain (kind : A2AMessageKinds) : Plain kind.family.toString := by
  cases kind
  all_goals
    dsimp only [A2AMessageKinds.family, MessageFamilies.toString]
    rw [Plain, String.toList_ofList]
    decide

theorem A2AMessageKinds.family_readAlike (kind : A2AMessageKinds) : kind.family.ReadAlike := by
  cases kind <;> trivial

theorem MessageTypes.buildV2_faithful (beyondAscii : Char → Bool) (kind : A2AMessageKinds) :
    Faithful beyondAscii (MessageTypes.buildV2 kind) := by
  have hdid : (MessageTypes.buildV2 kind).did = MessageTypes.did := rfl
  have hversion : (MessageTypes.buildV2 kind).version = "1.0" := kind.family.version_eq
  have hname : Plain (MessageTypes.buildV2 kind).type := kind.name_plain
  have hfamily : Plain (MessageTypes.buildV2 kind).family.toString := kind.family_plain
  have halike : (MessageTypes.buildV2 kind).family.ReadAlike := kind.family_readAlike
  exact (faithful_iff hdid hversion (fun _ => hfamily)).mpr ⟨hname, halike⟩

/-- A payload kind of another name, which no reader knows or splits. -/
def PayloadKinds.ReadBack : PayloadKinds → Prop
  | .other name => Plain name ∧ name ∉ familyNames
  | _ => False

theorem PayloadTypes.buildV2_faithful_iff (beyondAscii : Char → Bool) (protocol : ProtocolTypes)
    (kind : PayloadKinds) :
    Faithful beyondAscii (PayloadTypes.buildV2 protocol kind) ↔ kind.ReadBack := by
  have hversion : (PayloadTypes.buildV2 protocol kind).version = "1.0" := kind.family.version_eq
  cases kind with
  | other name => exact faithful_iff rfl hversion id
  | _ =>
    exact (faithful_iff rfl hversion (fun _ => exchange_plain)).trans (iff_of_false And.right id)

end Vcx

namespace Agency

variable {beyondAscii : Char → Bool}

/-- A type of the cloud agent that the cloud agent and the library read as it is. -/
structure Faithful (beyondAscii : Char → Bool) (m : MessageTypeV2) : Prop where
  own : MessageTypeV2.deserialize beyondAscii m.serialize = .ok m
  vcx : Vcx.MessageTypeV2.deserialize beyondAscii m.serialize =
    .ok (m.map MessageFamilies.toVcx)

theorem faithful_iff {m : MessageTypeV2} (hdid : m.did = MessageTypes.did)
    (hversion : m.version = "1.0") (hfamily : Plain m.type → Plain m.family.toString) :
    Faithful beyondAscii m ↔ Plain m.type ∧ m.family.ReadAlike := by
  have hidentifies : Identifies beyondAscii m.did := hdid ▸ did_identifies beyondAscii
  have hplain : Plain m.version := hversion ▸ by decide
  have hown : MessageTypeV2.deserialize beyondAscii m.serialize = .ok m ↔
      Plain m.type ∧ MessageFamilies.ofString m.family.toString = m.family :=
    read_write_iff beyondAscii (parseMessageType_eq_ok beyondAscii) hidentifies hplain hfamily id
  have hvcx : Vcx.MessageTypeV2.deserialize beyondAscii m.serialize =
      .ok (m.map MessageFamilies.toVcx) ↔ Plain m.type ∧
        Vcx.MessageFamilies.ofString m.family.toString = m.family.toVcx :=
    read_write_iff beyondAscii (Vcx.parseMessageType_eq_ok beyondAscii) hidentifies hplain
      hfamily MessageFamilies.toVcx
  rw [m.family.ofString_toString_iff] at hown
  rw [m.family.vcx_ofString_toString_iff] at hvcx
  exact ⟨fun h => hown.mp h.own, fun h => ⟨hown.mpr h, hvcx.mpr h⟩⟩

theorem A2AMessageKinds.name_plain (kind : A2AMessageKinds) : Plain kind.name := by
  cases kind
  all_goals
    dsimp only [A2AMessageKinds.name]
    rw [Plain, String.toList_ofList]
    decide

theorem A2AMessageKinds.family_plain (kind : A2AMessageKinds) : Plain kind.family.toString := by
  cases kind
  all_goals
    dsimp only [A2AMessageKinds.family, MessageFamilies.toString]
    rw [Plain, String.toList_ofList]
    decide

theorem A2AMessageKinds.family_readAlike (kind : A2AMessageKinds) : kind.family.ReadAlike := by
  cases kind <;> trivial

theorem MessageTypes.buildV2_faithful (beyondAscii : Char → Bool) (kind : A2AMessageKinds) :
    Faithful beyondAscii (MessageTypes.buildV2 kind) := by
  have hdid : (MessageTypes.buildV2 kind).did = MessageTypes.did := rfl
  have hversion : (MessageTypes.buildV2 kind).version = "1.0" := kind.family.version_eq
  have hname : Plain (MessageTypes.buildV2 kind).type := kind.name_plain
  have hfamily : Plain (MessageTypes.buildV2 kind).family.toString := kind.family_plain
  have halike : (MessageTypes.buildV2 kind).family.ReadAlike := kind.family_readAlike
  exact (faithful_iff hdid hversion (fun _ => hfamily)).mpr ⟨hname, halike⟩

def PayloadKinds.ReadBack : PayloadKinds → Prop
  | .other name => Plain name ∧ name ∉ familyNames
  | _ => False

theorem PayloadTypes.buildV2_faithful_iff (beyondAscii : Char → Bool) (protocol : ProtocolTypes)
    (kind : PayloadKinds) :
    Faithful beyondAscii (PayloadTypes.buildV2 protocol kind) ↔ kind.ReadBack := by
  have hversion : (PayloadTypes.buildV2 protocol kind).version = "1.0" := kind.family.version_eq
  cases kind with
  | other name => exact faithful_iff rfl hversion id
  | _ =>
    exact (faithful_iff rfl hversion (fun _ => exchange_plain)).trans (iff_of_false And.right id)

end Agency

/-- The types of messages are read as they were built, and those of payloads exactly when the kind
is one of another name that has no slash, no line break and is no family's; a family is read by the
other side exactly when it is not that of credential exchange and has no known name. -/
theorem messageTypes_readBack_iff (beyondAscii : Char → Bool) :
    (∀ kind, Vcx.Faithful beyondAscii (Vcx.MessageTypes.buildV2 kind)) ∧
    (∀ kind, Agency.Faithful beyondAscii (Agency.MessageTypes.buildV2 kind)) ∧
    (∀ protocol kind,
      Vcx.Faithful beyondAscii (Vcx.PayloadTypes.buildV2 protocol kind) ↔ kind.ReadBack) ∧
    (∀ protocol kind,
      Agency.Faithful beyondAscii (Agency.PayloadTypes.buildV2 protocol kind) ↔ kind.ReadBack) ∧
    (∀ family : Vcx.MessageFamilies,
      Agency.MessageFamilies.ofString family.toString = family.toAgency ↔ family.ReadAlike) ∧
    ∀ family : Agency.MessageFamilies,
      Vcx.MessageFamilies.ofString family.toString = family.toVcx ↔ family.ReadAlike :=
  ⟨Vcx.MessageTypes.buildV2_faithful beyondAscii, Agency.MessageTypes.buildV2_faithful beyondAscii,
    Vcx.PayloadTypes.buildV2_faithful_iff beyondAscii,
    Agency.PayloadTypes.buildV2_faithful_iff beyondAscii,
    Vcx.MessageFamilies.agency_ofString_toString_iff,
    Agency.MessageFamilies.vcx_ofString_toString_iff⟩

/-- A credential offer comes back as a payload of an unknown family. -/
theorem credentialOffer_readAsUnknown :
    Vcx.MessageTypeV2.deserialize (fun _ => false)
        (Vcx.PayloadTypes.buildV2 .V2 .credOffer).serialize =
      .ok { Vcx.PayloadTypes.buildV2 .V2 .credOffer with
        family := .unknown "credential_exchange" } ∧
    Agency.MessageFamilies.ofString (Vcx.MessageFamilies.toString .credentialExchange) ≠
      .credentialExchange := by
  decide +kernel

end IndySdk
