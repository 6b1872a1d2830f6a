import IndySdk.PackRoundTrip
import IndySdk.RequestSigning

/-!
# Requests with several signatures

What is signed leaves out the members that signing adds, so each signature is made over the same
text, whoever signed before. Signing in any order gives the same request, unless what stands in the
place of the signatures is no object.
-/

namespace IndySdk.RequestSigning

open Outcome List Json
open Crypto MyDids
open DidResolution (Did)

/-- The laws of the libraries. The values of the JSON library are maps wherever they are objects,
and they are read back from their texts if they do not nest too deeply. -/
structure SignLaws (crates : SignCrates) where
  limit : ℕ
  two_le_limit : 2 ≤ limit
  IsValue : Json → Prop
  isValue_str : ∀ s, IsValue (.str s)
  isValue_obj : ∀ members, IsValue (.obj members) ↔
    (members.map Prod.fst).Pairwise (· < ·) ∧ ∀ m ∈ members, IsValue m.2
  of_read : ∀ s j, crates.fromStr s = some j → IsValue j ∧ j.depth ≤ limit
  read_text : ∀ j, IsValue j → j.depth ≤ limit → crates.fromStr j.text = some j
  verify_sign : ∀ seed doc, crates.verifyDetached
    (crates.signDetached doc (crates.sodium.keypairFromSeed seed).2) doc
    (crates.sodium.keypairFromSeed seed).1 = true

section

variable (crates : SignCrates) (wallet : WalletRecords)

/-- A DID of the wallet, whose key pair was created and is in the wallet. -/
def Submitter (did : String) : Prop :=
  ∃ record seed, wallet.dids.lookup did = some record ∧
    record.verkey = (createdKey crates.toPackCrates seed).verkey ∧
      wallet.keys.lookup record.verkey = some (createdKey crates.toPackCrates seed)

/-- The signature of a DID over a serialised request. -/
def signatureOf (did serialized : String) : IndyResult String := do
  let myDid : Did ← getIndyObject did wallet
  let myKey : Key ← getIndyObject myDid.verkey wallet
  let signature ← sign crates myKey (Bytes.ofText serialized)
  pure (encode crates.codec.base58 signature)

/-- A member is a signature of the request by the key of a DID. -/
def Verifies (request : Json) (did : String) (signature : Json) : Prop :=
  ∃ record serialized text bytes, wallet.dids.lookup did = some record ∧
    serializeSignature crates.sha256 request = .ok serialized ∧ signature = .str text ∧
      decode crates.codec.base58 text = .ok bytes ∧
        verify crates record.verkey (Bytes.ofText serialized) bytes = .ok true

/-- The signatures that a request has. -/
def signaturesOf (request : List (String × Json)) : List (String × Json) :=
  ((Json.obj request).get "signatures").asObject.getD []

/-- A request with one more signature. -/
def withSignature (did signature : String) (request : List (String × Json)) :
    List (String × Json) :=
  Json.putMember "signatures"
    (.obj (Json.putMember did (.str signature) (signaturesOf request)))
    (if (Json.member? "signatures" request).isSome then request
      else Json.putMember "signatures" (.obj []) request)

/-- A request with the signatures of some signings: each verifies, the others are as they were, and
so is everything else. -/
structure Composed (request result : List (String × Json)) (signings : List Signing) : Prop where
  others : ∀ name, name ≠ "signatures" → name ≠ "signature" →
    Json.member? name result = Json.member? name request
  serialized : serializeSignature crates.sha256 (.obj result) =
    serializeSignature crates.sha256 (.obj request)
  unsigned : (∀ did, (SignatureType.single, did) ∉ signings) →
    Json.member? "signature" result = Json.member? "signature" request
  single : ∀ did, (SignatureType.single, did) ∈ signings →
    ∃ signature, Json.member? "signature" result = some signature ∧
      Verifies crates wallet (.obj result) did signature
  untouched : (∀ did, (SignatureType.multi, did) ∉ signings) →
    Json.member? "signatures" result = Json.member? "signatures" request
  earlier : ∀ did, (SignatureType.multi, did) ∉ signings →
    Json.member? did (signaturesOf result) = Json.member? did (signaturesOf request)
  multi : ∀ did, (SignatureType.multi, did) ∈ signings →
    ∃ signature, Json.member? did (signaturesOf result) = some signature ∧
      Verifies crates wallet (.obj result) did signature

/-- Whatever the order of the signings, none panics, all have the same outcome, and a request that
can be serialised is signed. -/
structure Composes (requestJson : String) (request : List (String × Json))
    (signings : List Signing) : Prop where
  never_panics : ∀ order : List Signing, order.Perm signings →
    signAll crates wallet order requestJson ≠ .panic
  order_free : ∀ order order' : List Signing, order.Perm signings → order'.Perm signings →
    signAll crates wallet order requestJson = signAll crates wallet order' requestJson
  yields : ∀ serialized, serializeSignature crates.sha256 (.obj request) = .ok serialized →
    ∀ order : List Signing, order.Perm signings → ∃ text result,
      signAll crates wallet order requestJson = .ok text ∧
        crates.fromStr text = some (.obj result) ∧
          Composed crates wallet request result signings

/-- Each of some DIDs signs among others, and at most one signs alone. -/
def signingsOf (dids : List String) (single : Option String) : List Signing :=
  dids.map (fun did => (SignatureType.multi, did)) ++
    single.toList.map (fun did => (SignatureType.single, did))

end

/-! ### What is signed -/

variable {request : List (String × Json)} {did requestJson : String}

theorem sorted_filter (p : String × Json → Bool) (h : (request.map Prod.fst).Pairwise (· < ·)) :
    ((request.filter p).map Prod.fst).Pairwise (· < ·) :=
  h.sublist (filter_sublist.map Prod.fst)

theorem serializeSignature_congr {sha256 : Bytes → Bytes} {result : List (String × Json)}
    (h : (request.map Prod.fst).Pairwise (· < ·)) (h' : (result.map Prod.fst).Pairwise (· < ·))
    (hsame : ∀ name, unsignedNames.contains name = false →
      Json.member? name result = Json.member? name request) :
    serializeSignature sha256 (.obj result) = serializeSignature sha256 (.obj request) := by
  have hpart : signedPart (.obj result) = signedPart (.obj request) := by
    rw [signedPart, signedPart]
    congr 1
    refine eq_of_sorted (sorted_filter _ h') (sorted_filter _ h) ?_
    intro name
    by_cases hname : unsignedNames.contains name = true
    · have hnone : ∀ ms : List (String × Json), Json.member? name
          (ms.filter (fun m => !unsignedNames.contains m.1)) = none := by
        intro ms
        rw [member?_eq_none_iff, mem_map]
        rintro ⟨m, hm, rfl⟩
        have hkept := (mem_filter.mp hm).2
        rw [hname] at hkept
        cases hkept
      rw [hnone, hnone]
    · rw [Bool.not_eq_true] at hname
      have hkept := @member?_filter (fun name => !unsignedNames.contains name) name
        (by rw [hname]; rfl)
      rw [hkept, hkept, hsame name hname]
  have htype : requestType (.obj result) = requestType (.obj request) := by
    rw [requestType, requestType, Json.get, Json.get, hsame "operation" rfl]
  rw [serializeSignature, serializeSignature, serialize_top, serialize_top, hpart, htype]

variable {crates : SignCrates} {wallet : WalletRecords}

/-! ### Submitters -/

theorem Submitter.signatureOf_eq (laws : SignLaws crates) (h : Submitter crates wallet did)
    (serialized : String) :
    ∃ record text bytes, signatureOf crates wallet did serialized = .ok text ∧
      wallet.dids.lookup did = some record ∧ decode crates.codec.base58 text = .ok bytes ∧
        verify crates record.verkey (Bytes.ofText serialized) bytes = .ok true := by
  obtain ⟨record, seed, hdid, hverkey, hkey⟩ := h
  have hgetDid : getIndyObject did wallet = .ok record := getIndyObject_eq_ok.mpr hdid
  have hgetKey : getIndyObject record.verkey wallet = .ok (createdKey crates.toPackCrates seed) :=
    getIndyObject_eq_ok.mpr hkey
  have hsign : ∀ doc, sign crates (createdKey crates.toPackCrates seed) doc =
      .ok (crates.signDetached doc (crates.sodium.keypairFromSeed seed).2).bytes := by
    intro doc
    rw [sign, splitKey_createdKey]
    dsimp only
    rw [knownCryptoType_default, ok_bind, secretKey_createdKey, ok_bind]
    rfl
  have hverify : ∀ doc, verify crates record.verkey doc
      (crates.signDetached doc (crates.sodium.keypairFromSeed seed).2).bytes = .ok true := by
    intro doc
    rw [verify, hverkey, splitKey_createdKey]
    dsimp only
    rw [knownCryptoType_default, ok_bind, publicKey_createdKey, ok_bind,
      fromSlice_bytes, ok_bind, laws.verify_sign]
    rfl
  refine ⟨record, encode crates.codec.base58 (crates.signDetached (Bytes.ofText serialized)
    (crates.sodium.keypairFromSeed seed).2).bytes, _, ?_, hdid, ?_, hverify _⟩
  · rw [signatureOf, hgetDid, ok_bind, hgetKey, ok_bind, hsign, ok_bind]
    rfl
  · exact crates.codec.decode_toBase58 _

/-! ### One signing -/

theorem signRequest_eq {requestJson did serialized signature : String}
    {request : List (String × Json)} {signatureType : SignatureType}
    (hread : crates.fromStr requestJson = some (.obj request))
    (hserialized : serializeSignature crates.sha256 (.obj request) = .ok serialized)
    (hsignature : signatureOf crates wallet did serialized = .ok signature) :
    signRequest crates wallet did requestJson signatureType =
      (match signatureType with
        | .single => pure ((Json.obj request).put "signature" (.str signature))
        | .multi => insertSignature did signature request) >>= fun r => pure r.text := by
  obtain ⟨record, hrecord, hsignature⟩ := bind_eq_ok_iff.mp hsignature
  obtain ⟨key, hkey, hsignature⟩ := bind_eq_ok_iff.mp hsignature
  obtain ⟨bytes, hbytes, hsignature⟩ := bind_eq_ok_iff.mp hsignature
  cases hsignature
  rw [signRequest, hrecord, ok_bind, hkey, ok_bind, hread, ofOption_some,
    ok_bind]
  dsimp only
  rewrite [hserialized, ok_bind, hbytes, ok_bind]
  rfl

theorem signRequest_err {e : IndyError} (signatureType : SignatureType)
    (h : Submitter crates wallet did) (hread : crates.fromStr requestJson = some (.obj request))
    (hserialized : serializeSignature crates.sha256 (.obj request) = .err e) :
    signRequest crates wallet did requestJson signatureType = .err e := by
  obtain ⟨record, seed, hdid, -, hkey⟩ := h
  have hgetDid : getIndyObject did wallet = .ok record := getIndyObject_eq_ok.mpr hdid
  have hgetKey : getIndyObject record.verkey wallet = .ok (createdKey crates.toPackCrates seed) :=
    getIndyObject_eq_ok.mpr hkey
  rw [signRequest, hgetDid, ok_bind, hgetKey, ok_bind, hread,
    ofOption_some, ok_bind]
  dsimp only
  rw [hserialized, err_bind]

/-- The signatures are absent or an object. -/
def Extensible (request : List (String × Json)) : Prop :=
  ∀ value, Json.member? "signatures" request = some value → value.isObject = true

theorem insertSignature_eq (h : Extensible request) (did signature : String) :
    insertSignature did signature request = .ok (.obj (withSignature did signature request)) := by
  unfold insertSignature withSignature signaturesOf
  cases hmember : Json.member? "signatures" request with
  | none =>
    have hget : (Json.obj (Json.putMember "signatures" (.obj []) request)).get "signatures" =
        .obj [] := by
      rw [Json.get, member?_putMember_self]
      rfl
    have hempty : ((Json.obj request).get "signatures").asObject = none := by
      rw [Json.get, hmember]
      rfl
    simp only [Option.isSome_none, Bool.false_eq_true, if_false, hget, hempty]
    rfl
  | some value =>
    have hget : (Json.obj request).get "signatures" = value := by
      rw [Json.get, hmember]
      rfl
    cases value with
    | obj signatures =>
      simp only [Option.isSome_some, if_true, hget]
      rfl
    | _ => cases h _ hmember

theorem insertSignature_panic (h : ¬ Extensible request) (did signature : String) :
    insertSignature did signature request = .panic := by
  unfold Extensible at h
  push Not at h
  obtain ⟨value, hmember, hobject⟩ := h
  have hget : (Json.obj request).get "signatures" = value := by
    rw [Json.get, hmember]
    rfl
  unfold insertSignature
  cases value with
  | obj signatures => exact absurd rfl hobject
  | _ =>
    simp only [hmember, Option.isSome_some, if_true, hget]
    rfl

/-! ### Signed requests -/

/-- A request after some signings, each of which added the signature of its DID over what the
request is serialised to. -/
structure SignedBy (laws : SignLaws crates) (wallet : WalletRecords) (serialized : String)
    (request : List (String × Json)) (done : List Signing) (result : List (String × Json)) :
    Prop where
  value : laws.IsValue (.obj result)
  depth : (Json.obj result).depth ≤ laws.limit
  others : ∀ name, name ≠ "signatures" → name ≠ "signature" →
    Json.member? name result = Json.member? name request
  extensible : Extensible request → Extensible result
  unsigned : (∀ did, (SignatureType.single, did) ∉ done) →
    Json.member? "signature" result = Json.member? "signature" request
  single : ∀ did, (SignatureType.single, did) ∈ done →
    ∃ text, signatureOf crates wallet did serialized = .ok text ∧
      Json.member? "signature" result = some (.str text)
  untouched : (∀ did, (SignatureType.multi, did) ∉ done) →
    Json.member? "signatures" result = Json.member? "signatures" request
  object : ∀ did, (SignatureType.multi, did) ∈ done →
    ∃ signatures, Json.member? "signatures" result = some (.obj signatures)
  earlier : ∀ did, (SignatureType.multi, did) ∉ done →
    Json.member? did (signaturesOf result) = Json.member? did (signaturesOf request)
  multi : ∀ did, (SignatureType.multi, did) ∈ done →
    ∃ text, signatureOf crates wallet did serialized = .ok text ∧
      Json.member? did (signaturesOf result) = some (.str text)

theorem signaturesOf_eq {signatures : List (String × Json)}
    (h : Json.member? "signatures" request = some (.obj signatures)) :
    signaturesOf request = signatures := by
  rw [signaturesOf, Json.get, h]
  rfl

theorem signaturesOf_congr {result : List (String × Json)}
    (h : Json.member? "signatures" result = Json.member? "signatures" request) :
    signaturesOf result = signaturesOf request := by
  rw [signaturesOf, signaturesOf, Json.get, Json.get, h]

theorem SignLaws.isValue_signatures (laws : SignLaws crates) (h : laws.IsValue (.obj request)) :
    laws.IsValue (.obj (signaturesOf request)) := by
  have hempty : laws.IsValue (.obj []) :=
    (laws.isValue_obj []).mpr ⟨List.Pairwise.nil, fun _ h => absurd h not_mem_nil⟩
  cases hmember : Json.member? "signatures" request with
  | none =>
    rw [signaturesOf, Json.get, hmember]
    exact hempty
  | some value =>
    have hvalue := ((laws.isValue_obj request).mp h).2 _ (mem_of_member? hmember)
    rw [signaturesOf, Json.get, hmember]
    cases value with
    | obj signatures => exact hvalue
    | _ => exact hempty

theorem SignLaws.isValue_put (laws : SignLaws crates) {key : String} {value : Json}
    {members : List (String × Json)} (hvalue : laws.IsValue value)
    (h : laws.IsValue (.obj members)) : laws.IsValue (.obj (Json.putMember key value members)) := by
  obtain ⟨hsorted, hmembers⟩ := (laws.isValue_obj members).mp h
  refine (laws.isValue_obj _).mpr ⟨putMember_sorted hsorted, ?_⟩
  intro m hm
  rcases mem_putMember hm with rfl | hold
  · exact hvalue
  · exact hmembers m hold

theorem depth_signatures_lt {bound : ℕ} (h2 : 2 ≤ bound) (h : (Json.obj request).depth ≤ bound) :
    (Json.obj (signaturesOf request)).depth < bound := by
  have hempty : (Json.obj []).depth < bound := by
    rw [Json.depth, Json.depthMembers]
    omega
  cases hmember : Json.member? "signatures" request with
  | none =>
    rw [signaturesOf, Json.get, hmember]
    exact hempty
  | some value =>
    have hle := depth_le_of_mem (mem_of_member? hmember)
    rw [Json.depth] at h
    rw [signaturesOf, Json.get, hmember]
    cases value with
    | obj signatures => exact Nat.lt_of_lt_of_le (Nat.lt_succ_of_le hle) h
    | _ => exact hempty

theorem depth_str (s : String) : (Json.str s).depth = 0 := by
  simp [Json.depth]

theorem member?_withSignature (did text name : String) (request : List (String × Json)) :
    Json.member? name (withSignature did text request) =
      if name = "signatures" then
        some (.obj (Json.putMember did (.str text) (signaturesOf request)))
      else Json.member? name request := by
  unfold withSignature
  by_cases hname : name = "signatures"
  · rw [if_pos hname, hname, member?_putMember_self]
  · rw [if_neg hname, member?_putMember_of_ne hname]
    split_ifs
    · rfl
    · exact member?_putMember_of_ne hname _ _

theorem SignLaws.withSignature_value (laws : SignLaws crates) (did text : String)
    (h : laws.IsValue (.obj request)) (hdepth : (Json.obj request).depth ≤ laws.limit) :
    laws.IsValue (.obj (withSignature did text request)) ∧
      (Json.obj (withSignature did text request)).depth ≤ laws.limit := by
  have hempty : laws.IsValue (.obj []) :=
    (laws.isValue_obj []).mpr ⟨List.Pairwise.nil, fun _ h => absurd h not_mem_nil⟩
  have hlimit := laws.two_le_limit
  have hlt := depth_signatures_lt hlimit hdepth
  have hsignatures : laws.IsValue (.obj (Json.putMember did (.str text) (signaturesOf request))) :=
    laws.isValue_put (laws.isValue_str text) (laws.isValue_signatures h)
  have hinner : (Json.obj (Json.putMember did (.str text) (signaturesOf request))).depth <
      laws.limit := by
    have hle := @depth_put_le did (.str text) (signaturesOf request) (laws.limit - 1)
      (by rw [depth_str]; omega) (by omega)
    omega
  unfold withSignature
  split_ifs
  · exact ⟨laws.isValue_put hsignatures h, depth_put_le hinner hdepth⟩
  · refine ⟨laws.isValue_put hsignatures (laws.isValue_put hempty h), ?_⟩
    refine depth_put_le hinner (depth_put_le ?_ hdepth)
    rw [Json.depth, Json.depthMembers]
    omega

section

variable {laws : SignLaws crates} {serialized : String} {request result : List (String × Json)}
  {done : List Signing} {did text : String}

theorem SignedBy.start (hvalue : laws.IsValue (.obj request))
    (hdepth : (Json.obj request).depth ≤ laws.limit) :
    SignedBy laws wallet serialized request [] request where
  value := hvalue
  depth := hdepth
  others _ _ _ := rfl
  extensible h := h
  unsigned _ := rfl
  single _ h := absurd h not_mem_nil
  untouched _ := rfl
  object _ h := absurd h not_mem_nil
  earlier _ _ := rfl
  multi _ h := absurd h not_mem_nil

theorem SignedBy.serialized_eq (h : SignedBy laws wallet serialized request done result)
    (hvalue : laws.IsValue (.obj request)) :
    serializeSignature crates.sha256 (.obj result) =
      serializeSignature crates.sha256 (.obj request) := by
  refine serializeSignature_congr ((laws.isValue_obj request).mp hvalue).1
    ((laws.isValue_obj result).mp h.value).1 ?_
  intro name hname
  apply h.others name
  · rintro rfl
    exact absurd hname (by decide)
  · rintro rfl
    exact absurd hname (by decide)

theorem SignedBy.signSingle (h : SignedBy laws wallet serialized request done result)
    (hsignature : signatureOf crates wallet did serialized = .ok text)
    (hone : ∀ other, (SignatureType.single, other) ∈ done → other = did) :
    SignedBy laws wallet serialized request ((.single, did) :: done)
      (Json.putMember "signature" (.str text) result) := by
  have hmember : ∀ name, name ≠ "signature" →
      Json.member? name (Json.putMember "signature" (.str text) result) =
        Json.member? name result :=
    fun name hname => member?_putMember_of_ne hname _ _
  have hsignatures := hmember "signatures" (by decide)
  have hmulti : ∀ other, (SignatureType.multi, other) ∈
      ((SignatureType.single, did) :: done : List Signing) ↔
        (SignatureType.multi, other) ∈ done := by
    intro other
    simp
  constructor
  · exact laws.isValue_put (laws.isValue_str text) h.value
  · refine depth_put_le ?_ h.depth
    have hlimit := laws.two_le_limit
    rw [depth_str]
    omega
  · intro name hname hname'
    rw [hmember name hname', h.others name hname hname']
  · intro hext value hvalue
    exact h.extensible hext value (hsignatures ▸ hvalue)
  · exact fun hnone => absurd mem_cons_self (hnone did)
  · intro other hother
    have hsame : other = did := by
      rcases mem_cons.mp hother with heq | hold
      · exact congrArg Prod.snd heq
      · exact hone other hold
    exact ⟨text, hsame ▸ hsignature, member?_putMember_self _ _ _⟩
  · intro hnone
    rw [hsignatures]
    exact h.untouched (fun other hother => hnone other ((hmulti other).mpr hother))
  · intro other hother
    rw [hsignatures]
    exact h.object other ((hmulti other).mp hother)
  · intro other hother
    rw [signaturesOf_congr hsignatures]
    exact h.earlier other (fun hmem => hother ((hmulti other).mpr hmem))
  · intro other hother
    rw [signaturesOf_congr hsignatures]
    exact h.multi other ((hmulti other).mp hother)

theorem SignedBy.signMulti (h : SignedBy laws wallet serialized request done result)
    (hsignature : signatureOf crates wallet did serialized = .ok text) :
    SignedBy laws wallet serialized request ((.multi, did) :: done)
      (withSignature did text result) := by
  have hself := member?_withSignature did text "signatures" result
  rw [if_pos rfl] at hself
  have hsingle : ∀ other, (SignatureType.single, other) ∈
      ((SignatureType.multi, did) :: done : List Signing) ↔
        (SignatureType.single, other) ∈ done := by
    intro other
    simp
  have hmember : ∀ name, name ≠ "signatures" →
      Json.member? name (withSignature did text result) = Json.member? name result := by
    intro name hname
    rw [member?_withSignature, if_neg hname]
  constructor
  · exact (laws.withSignature_value did text h.value h.depth).1
  · exact (laws.withSignature_value did text h.value h.depth).2
  · intro name hname hname'
    rw [hmember name hname, h.others name hname hname']
  · intro _ value hvalue
    rw [hself] at hvalue
    cases hvalue
    rfl
  · intro hnone
    rw [hmember "signature" (by decide)]
    exact h.unsigned (fun other hother => hnone other ((hsingle other).mpr hother))
  · intro other hother
    rw [hmember "signature" (by decide)]
    exact h.single other ((hsingle other).mp hother)
  · exact fun hnone => absurd mem_cons_self (hnone did)
  · exact fun _ _ => ⟨_, hself⟩
  · intro other hother
    rw [mem_cons, not_or] at hother
    have hne : other ≠ did := fun heq => hother.1 (by rw [heq])
    rw [signaturesOf_eq hself, member?_putMember_of_ne hne]
    exact h.earlier other hother.2
  · intro other hother
    rw [signaturesOf_eq hself]
    by_cases heq : other = did
    · subst heq
      exact ⟨text, hsignature, member?_putMember_self _ _ _⟩
    · rw [member?_putMember_of_ne heq]
      rcases mem_cons.mp hother with hfirst | hold
      · exact absurd (congrArg Prod.snd hfirst) heq
      · exact h.multi other hold

theorem SignedBy.sign (h : SignedBy laws wallet serialized request done result)
    (hvalue : laws.IsValue (.obj request))
    (hserialized : serializeSignature crates.sha256 (.obj request) = .ok serialized)
    {signing : Signing} (hsubmitter : Submitter crates wallet signing.2)
    (hone : ∀ did other, (SignatureType.single, did) ∈ signing :: done →
      (SignatureType.single, other) ∈ signing :: done → other = did)
    (hext : signing.1 = .multi → Extensible request) {requestJson : String}
    (hread : crates.fromStr requestJson = some (.obj result)) :
    ∃ next, signRequest crates wallet signing.2 requestJson signing.1 =
        .ok (Json.obj next).text ∧
      crates.fromStr (Json.obj next).text = some (.obj next) ∧
      SignedBy laws wallet serialized request (signing :: done) next := by
  obtain ⟨record, text, bytes, hsignature, -⟩ := hsubmitter.signatureOf_eq laws serialized
  have hagain : serializeSignature crates.sha256 (.obj result) = .ok serialized := by
    rw [h.serialized_eq hvalue, hserialized]
  have hrun := @signRequest_eq crates wallet requestJson signing.2 serialized text result signing.1
    hread hagain hsignature
  obtain ⟨signatureType, did⟩ := signing
  cases signatureType with
  | single =>
    have hnext := h.signSingle hsignature (fun other hother =>
      hone did other mem_cons_self (mem_cons_of_mem _ hother))
    exact ⟨_, hrun, laws.read_text _ hnext.value hnext.depth, hnext⟩
  | multi =>
    have hnext := h.signMulti hsignature
    refine ⟨_, ?_, laws.read_text _ hnext.value hnext.depth, hnext⟩
    rw [hrun]
    dsimp only
    rw [insertSignature_eq (h.extensible (hext rfl))]
    rfl

/-- Any further signings of a request that has been read. -/
theorem SignedBy.signAll (hvalue : laws.IsValue (.obj request))
    (hserialized : serializeSignature crates.sha256 (.obj request) = .ok serialized)
    (order : List Signing) (h : SignedBy laws wallet serialized request done result)
    (hsubmitters : ∀ signing ∈ order, Submitter crates wallet signing.2)
    (hone : ∀ did other, (SignatureType.single, did) ∈ order ++ done →
      (SignatureType.single, other) ∈ order ++ done → other = did)
    (hext : ∀ signing ∈ order, signing.1 = .multi → Extensible request) {requestJson : String}
    (hread : crates.fromStr requestJson = some (.obj result)) :
    ∃ text last, RequestSigning.signAll crates wallet order requestJson = .ok text ∧
      crates.fromStr text = some (.obj last) ∧
      (∀ signing, order.head? = some signing → text = (Json.obj last).text) ∧
      SignedBy laws wallet serialized request (order.reverse ++ done) last := by
  induction order generalizing done result requestJson with
  | nil =>
    refine ⟨requestJson, result, rfl, hread, ?_, h⟩
    rintro signing ⟨⟩
  | cons signing order ih =>
    have hmem : ∀ other, other ∈ signing :: done → other ∈ (signing :: order) ++ done := by
      intro other hother
      rcases mem_cons.mp hother with rfl | hdone
      · exact mem_cons_self
      · exact mem_append_right _ hdone
    have hmem' : ∀ other, other ∈ order ++ (signing :: done) →
        other ∈ (signing :: order) ++ done := by
      intro other hother
      rcases mem_append.mp hother with horder | hdone
      · exact mem_append_left _ (mem_cons_of_mem signing horder)
      · exact hmem other hdone
    obtain ⟨next, hrun, hnext, hsigned⟩ := h.sign hvalue hserialized
      (hsubmitters signing mem_cons_self)
      (fun did other hdid hother => hone did other (hmem _ hdid) (hmem _ hother))
      (hext signing mem_cons_self) hread
    obtain ⟨text, last, hall, hlast, htext, hsigned⟩ := ih hsigned
      (fun other hother => hsubmitters other (mem_cons_of_mem signing hother))
      (fun did other hdid hother => hone did other (hmem' _ hdid) (hmem' _ hother))
      (fun other hother => hext other (mem_cons_of_mem signing hother)) hnext
    refine ⟨text, last, ?_, hlast, fun _ _ => ?_, ?_⟩
    · rw [RequestSigning.signAll, hrun, ok_bind, hall]
    · cases order with
      | nil =>
        rw [RequestSigning.signAll] at hall
        cases hall
        rw [hnext] at hlast
        cases hlast
        rfl
      | cons other order => exact htext other rfl
    · rw [reverse_cons, append_assoc]
      exact hsigned

/-- The signings determine the request. -/
theorem SignedBy.unique {done' : List Signing} {result' : List (String × Json)}
    (h : SignedBy laws wallet serialized request done result)
    (h' : SignedBy laws wallet serialized request done' result')
    (hsame : ∀ signing, signing ∈ done' ↔ signing ∈ done) : result' = result := by
  refine eq_of_sorted ((laws.isValue_obj result').mp h'.value).1
    ((laws.isValue_obj result).mp h.value).1 (fun name => ?_)
  by_cases hname : name = "signatures"
  · subst hname
    by_cases hmulti : ∃ did, (SignatureType.multi, did) ∈ done
    · obtain ⟨did, hdid⟩ := hmulti
      obtain ⟨signatures, hsignatures⟩ := h.object did hdid
      obtain ⟨signatures', hsignatures'⟩ := h'.object did ((hsame _).mpr hdid)
      have hvalue := laws.isValue_signatures h.value
      have hvalue' := laws.isValue_signatures h'.value
      rw [signaturesOf_eq hsignatures] at hvalue
      rw [signaturesOf_eq hsignatures'] at hvalue'
      rw [hsignatures, hsignatures']
      congr 2
      refine eq_of_sorted ((laws.isValue_obj _).mp hvalue').1
        ((laws.isValue_obj _).mp hvalue).1 (fun other => ?_)
      rw [← signaturesOf_eq hsignatures, ← signaturesOf_eq hsignatures']
      by_cases hother : (SignatureType.multi, other) ∈ done
      · obtain ⟨text, htext, hmember⟩ := h.multi other hother
        obtain ⟨text', htext', hmember'⟩ := h'.multi other ((hsame _).mpr hother)
        rw [htext] at htext'
        cases htext'
        rw [hmember, hmember']
      · rw [h.earlier other hother, h'.earlier other (fun hmem => hother ((hsame _).mp hmem))]
    · have hnone : ∀ did, (SignatureType.multi, did) ∉ done := not_exists.mp hmulti
      rw [h.untouched hnone, h'.untouched (fun did hdid => hnone did ((hsame _).mp hdid))]
  · by_cases hname' : name = "signature"
    · subst hname'
      by_cases hsingle : ∃ did, (SignatureType.single, did) ∈ done
      · obtain ⟨did, hdid⟩ := hsingle
        obtain ⟨text, htext, hmember⟩ := h.single did hdid
        obtain ⟨text', htext', hmember'⟩ := h'.single did ((hsame _).mpr hdid)
        rw [htext] at htext'
        cases htext'
        rw [hmember, hmember']
      · have hnone : ∀ did, (SignatureType.single, did) ∉ done := not_exists.mp hsingle
        rw [h.unsigned hnone, h'.unsigned (fun did hdid => hnone did ((hsame _).mp hdid))]
    · rw [h.others name hname hname', h'.others name hname hname']

theorem verifies_of_signatureOf (laws : SignLaws crates)
    (hresult : serializeSignature crates.sha256 (.obj result) = .ok serialized)
    (hsubmitter : Submitter crates wallet did)
    (htext : signatureOf crates wallet did serialized = .ok text) :
    Verifies crates wallet (.obj result) did (.str text) := by
  obtain ⟨record, text', bytes, htext', hrecord, hdecode, hverify⟩ :=
    hsubmitter.signatureOf_eq laws serialized
  rw [htext] at htext'
  cases htext'
  exact ⟨record, serialized, text, bytes, hrecord, hresult, rfl, hdecode, hverify⟩

theorem SignedBy.composed (h : SignedBy laws wallet serialized request done result)
    (hvalue : laws.IsValue (.obj request))
    (hserialized : serializeSignature crates.sha256 (.obj request) = .ok serialized)
    (hsubmitters : ∀ signing ∈ done, Submitter crates wallet signing.2)
    {signings : List Signing} (hsame : ∀ signing, signing ∈ done ↔ signing ∈ signings) :
    Composed crates wallet request result signings := by
  have hresult : serializeSignature crates.sha256 (.obj result) = .ok serialized := by
    rw [h.serialized_eq hvalue, hserialized]
  constructor
  · exact h.others
  · exact h.serialized_eq hvalue
  · exact fun hnone => h.unsigned (fun did hdid => hnone did ((hsame _).mp hdid))
  · intro did hdid
    obtain ⟨text, htext, hmember⟩ := h.single did ((hsame _).mpr hdid)
    exact ⟨_, hmember, verifies_of_signatureOf laws hresult
      (hsubmitters _ ((hsame _).mpr hdid)) htext⟩
  · exact fun hnone => h.untouched (fun did hdid => hnone did ((hsame _).mp hdid))
  · exact fun did hdid => h.earlier did (fun hmem => hdid ((hsame _).mp hmem))
  · intro did hdid
    obtain ⟨text, htext, hmember⟩ := h.multi did ((hsame _).mpr hdid)
    exact ⟨_, hmember, verifies_of_signatureOf laws hresult
      (hsubmitters _ ((hsame _).mpr hdid)) htext⟩

end

/-! ### Any order -/

variable {dids : List String} {single : Option String}

theorem mem_signingsOf {signing : Signing} :
    signing ∈ signingsOf dids single ↔
      (∃ did ∈ dids, signing = (.multi, did)) ∨ ∃ did ∈ single, signing = (.single, did) := by
  simp only [signingsOf, mem_append, mem_map, Option.mem_toList, Option.mem_def, eq_comm]

theorem submitter_of_mem (hdids : ∀ did ∈ dids, Submitter crates wallet did)
    (hsingle : ∀ did ∈ single, Submitter crates wallet did) :
    ∀ signing ∈ signingsOf dids single, Submitter crates wallet signing.2 := by
  intro signing hsigning
  rcases mem_signingsOf.mp hsigning with ⟨did, hdid, rfl⟩ | ⟨did, hdid, rfl⟩
  · exact hdids did hdid
  · exact hsingle did hdid

/-- A request that can be serialised is signed in every order. -/
theorem signAll_order (laws : SignLaws crates) {serialized : String}
    (hread : crates.fromStr requestJson = some (.obj request))
    (hserialized : serializeSignature crates.sha256 (.obj request) = .ok serialized)
    (hdids : ∀ did ∈ dids, Submitter crates wallet did)
    (hsingle : ∀ did ∈ single, Submitter crates wallet did)
    (hext : dids = [] ∨ Extensible request) :
    ∃ last, ∀ order : List Signing, order.Perm (signingsOf dids single) → ∃ text,
      signAll crates wallet order requestJson = .ok text ∧
        crates.fromStr text = some (.obj last) ∧
        (text = if order = [] then requestJson else (Json.obj last).text) ∧
          Composed crates wallet request last (signingsOf dids single) := by
  obtain ⟨hvalue, hdepth⟩ := laws.of_read requestJson _ hread
  have hsubmitters := submitter_of_mem hdids hsingle
  have hone : ∀ did other, (SignatureType.single, did) ∈ signingsOf dids single →
      (SignatureType.single, other) ∈ signingsOf dids single → other = did := by
    intro did other hdid hother
    rcases mem_signingsOf.mp hdid with ⟨_, _, heq⟩ | ⟨_, hdid, heq⟩
    · cases heq
    · cases heq
      rcases mem_signingsOf.mp hother with ⟨_, _, heq⟩ | ⟨_, hother, heq⟩
      · cases heq
      · cases heq
        exact Option.mem_unique hother hdid
  have hmulti : ∀ signing ∈ signingsOf dids single, signing.1 = .multi → Extensible request := by
    intro signing hsigning htype
    rcases mem_signingsOf.mp hsigning with ⟨did, hdid, -⟩ | ⟨did, -, rfl⟩
    · exact hext.resolve_left (ne_nil_of_mem hdid)
    · cases htype
  have hstart := @SignedBy.start crates wallet laws serialized request hvalue hdepth
  have hrun : ∀ order : List Signing, order.Perm (signingsOf dids single) → ∃ text last,
      signAll crates wallet order requestJson = .ok text ∧
        crates.fromStr text = some (.obj last) ∧
        (∀ signing, order.head? = some signing → text = (Json.obj last).text) ∧
        SignedBy laws wallet serialized request (order.reverse ++ []) last := by
    intro order hperm
    refine SignedBy.signAll hvalue hserialized order hstart
      (fun signing hsigning => hsubmitters signing (hperm.mem_iff.mp hsigning)) ?_
      (fun signing hsigning => hmulti signing (hperm.mem_iff.mp hsigning)) hread
    rw [append_nil]
    exact fun did other hdid hother => hone did other (hperm.mem_iff.mp hdid)
      (hperm.mem_iff.mp hother)
  have hmem : ∀ order : List Signing, order.Perm (signingsOf dids single) →
      ∀ signing, signing ∈ order.reverse ++ [] ↔ signing ∈ signingsOf dids single := by
    intro order hperm signing
    rw [append_nil, mem_reverse, hperm.mem_iff]
  obtain ⟨_, last, -, -, -, hlast⟩ := hrun (signingsOf dids single) (List.Perm.refl _)
  refine ⟨last, fun order hperm => ?_⟩
  obtain ⟨text, other, hall, hother, htext, hsigned⟩ := hrun order hperm
  obtain rfl : last = other := hsigned.unique hlast (fun signing =>
    (hmem _ (List.Perm.refl _) signing).trans (hmem order hperm signing).symm)
  refine ⟨text, hall, hother, ?_, ?_⟩
  · cases order with
    | nil =>
      rw [if_pos rfl]
      exact (Outcome.ok.inj hall).symm
    | cons signing order =>
      rw [if_neg (cons_ne_nil _ _)]
      exact htext signing rfl
  · exact hsigned.composed hvalue hserialized
      (fun signing hsigning => hsubmitters signing ((hmem order hperm signing).mp hsigning))
      (hmem order hperm)

theorem signAll_err {e : IndyError} (hread : crates.fromStr requestJson = some (.obj request))
    (hserialized : serializeSignature crates.sha256 (.obj request) = .err e) {order : List Signing}
    (hsubmitters : ∀ signing ∈ order, Submitter crates wallet signing.2) :
    signAll crates wallet order requestJson = if order = [] then .ok requestJson else .err e := by
  cases order with
  | nil => rfl
  | cons signing order =>
    rw [if_neg (cons_ne_nil _ _), signAll, signRequest_err signing.1
      (hsubmitters signing mem_cons_self) hread hserialized, err_bind]

theorem signRequest_panic (laws : SignLaws crates) {serialized : String}
    (hread : crates.fromStr requestJson = some (.obj request))
    (hserialized : serializeSignature crates.sha256 (.obj request) = .ok serialized)
    (hsubmitter : Submitter crates wallet did) (h : ¬ Extensible request) :
    signRequest crates wallet did requestJson .multi = .panic := by
  obtain ⟨record, text, bytes, hsignature, -⟩ := hsubmitter.signatureOf_eq laws serialized
  rw [signRequest_eq hread hserialized hsignature]
  dsimp only
  rw [insertSignature_panic h, panic_bind]

mutual

/-- Values of strings, arrays and objects in the order of their names. -/
def ordered : Json → Bool
  | .str _ => true
  | .arr elements => orderedElements elements
  | .obj members =>
    decide ((members.map Prod.fst).Pairwise (· < ·)) && orderedMembers members
  | _ => false

def orderedElements : List Json → Bool
  | [] => true
  | j :: elements => ordered j && orderedElements elements

def orderedMembers : List (String × Json) → Bool
  | [] => true
  | (_, j) :: members => ordered j && orderedMembers members

end

mutual

theorem textual_of_ordered : (j : Json) → ordered j = true → j.textual = true
  | .str _, _ => by rw [Json.textual]
  | .arr elements, h => by
    rw [ordered] at h
    rw [Json.textual]
    exact textualElements_of_ordered elements h
  | .obj members, h => by
    rw [ordered, Bool.and_eq_true] at h
    rw [Json.textual]
    exact textualMembers_of_ordered members h.2

theorem textualElements_of_ordered : (elements : List Json) → orderedElements elements = true →
    Json.textualElements elements = true
  | [], _ => by rw [Json.textualElements]
  | j :: elements, h => by
    rw [orderedElements, Bool.and_eq_true] at h
    rw [Json.textualElements, textual_of_ordered j h.1, textualElements_of_ordered elements h.2]
    rfl

theorem textualMembers_of_ordered : (members : List (String × Json)) →
    orderedMembers members = true → Json.textualMembers members = true
  | [], _ => by rw [Json.textualMembers]
  | (_, j) :: members, h => by
    rw [orderedMembers, Bool.and_eq_true] at h
    rw [Json.textualMembers, textual_of_ordered j h.1, textualMembers_of_ordered members h.2]
    rfl

end

theorem orderedMembers_iff (members : List (String × Json)) :
    orderedMembers members = true ↔ ∀ m ∈ members, ordered m.2 = true := by
  induction members with
  | nil => simp [orderedMembers]
  | cons m members ih => rw [orderedMembers, Bool.and_eq_true, ih, forall_mem_cons]

/-- Signatures that carry the key they verify under and the beginning of what they sign. -/
def exampleSignCrates : SignCrates where
  toPackCrates := { exampleCrates with
    fromStr := fun s => (Json.read s).filter (fun j => ordered j && decide (j.depth ≤ 127)) }
  sha256 := id
  signDetached doc sk := ⟨sk.bytes.take 32 ++ (doc ++ List.replicate 32 0).take 32, by
    simp [sk.length_bytes]⟩
  verifyDetached signature doc vk :=
    signature.bytes = vk.bytes ++ (doc ++ List.replicate 32 0).take 32

def exampleSignLaws : SignLaws exampleSignCrates where
  limit := 127
  two_le_limit := by decide
  IsValue j := ordered j = true
  isValue_str _ := by rw [ordered]
  isValue_obj members := by
    rw [ordered, Bool.and_eq_true, decide_eq_true_iff, orderedMembers_iff]
  of_read s j h := by
    obtain ⟨-, hj⟩ := Option.filter_eq_some_iff.mp h
    rw [Bool.and_eq_true, decide_eq_true_iff] at hj
    exact hj
  read_text j h hdepth := by
    change (Json.read j.text).filter _ = some j
    rw [read_text (textual_of_ordered j h), Option.filter_some, h, decide_eq_true hdepth]
    rfl
  verify_sign seed doc := by
    have htake : (exampleSodium.keypairFromSeed seed).2.bytes.take 32 = seed.bytes :=
      take_left' seed.length_bytes
    refine decide_eq_true ?_
    change (exampleSodium.keypairFromSeed seed).2.bytes.take 32 ++ _ = seed.bytes ++ _
    rw [htake]

def secondSeed : Seed := ⟨List.replicate 32 1, length_replicate⟩

def keyOfSeed (seed : Seed) : Key := createdKey exampleSignCrates.toPackCrates seed

/-- A wallet of two DIDs with their keys. -/
def twoDidWallet : WalletRecords where
  dids := (AList.singleton "did1" ⟨"did1", (keyOfSeed exampleSeed).verkey⟩).insert "did2"
    ⟨"did2", (keyOfSeed secondSeed).verkey⟩
  keys := (AList.singleton (keyOfSeed exampleSeed).verkey (keyOfSeed exampleSeed)).insert
    (keyOfSeed secondSeed).verkey (keyOfSeed secondSeed)

theorem keyOfSeed_ne : (keyOfSeed exampleSeed).verkey ≠ (keyOfSeed secondSeed).verkey := by
  decide +kernel

theorem submitter_first : Submitter exampleSignCrates twoDidWallet "did1" := by
  refine ⟨⟨"did1", (keyOfSeed exampleSeed).verkey⟩, exampleSeed, rfl, rfl, ?_⟩
  change (twoDidWallet.keys).lookup (keyOfSeed exampleSeed).verkey = _
  rw [twoDidWallet, AList.lookup_insert_ne keyOfSeed_ne]
  exact AList.lookup_insert ∅

theorem submitter_second : Submitter exampleSignCrates twoDidWallet "did2" := by
  refine ⟨⟨"did2", (keyOfSeed secondSeed).verkey⟩, secondSeed, rfl, rfl, ?_⟩
  exact AList.lookup_insert _

/-- A request with a given member in the place of the signatures. -/
def exampleRequest (signatures : Json) : List (String × Json) :=
  [("operation", .obj [("type", .str "1")]), ("signatures", signatures)]

theorem read_exampleRequest {signatures : Json} (h : ordered signatures = true)
    (hdepth : (Json.obj (exampleRequest signatures)).depth ≤ 127) :
    exampleSignCrates.fromStr (Json.obj (exampleRequest signatures)).text =
      some (.obj (exampleRequest signatures)) := by
  refine exampleSignLaws.read_text _ ?_ hdepth
  change ordered _ = true
  simp only [exampleRequest, ordered, orderedMembers, h, map_cons, map_nil]
  decide

end IndySdk.RequestSigning
