import IndySdk.AssocMap
import IndySdk.RevocationRegistry

/-!
# Issuing a credential from the records of a wallet

The public key and the schema id are looked up under the definition that the offer names, the
private key under the one that the request names, and the registry under the id that the caller
gives. A credential is issued for one definition exactly when these agree or something else refuses
the call before it writes.
-/

namespace IndySdk.Issuance

open Outcome Option
open Anoncreds (IssuanceType RevocationRegistryDefinitionValue RevocationRegistryInfo)

/-- The values of the cryptographic library, which are handed on unopened. -/
structure Material where
  PublicKey : Type
  PrivateKey : Type
  Accumulator : Type
  RegistryKey : Type
  BlindedSecrets : Type
  Nonce : Type
  Values : Type
  Signature : Type
  Delta : Type
  Witness : Type

variable (M : Material)

structure CredentialDefinition where
  id : String
  schemaId : String
  publicKey : M.PublicKey

structure RevocationRegistryDefinition where
  id : String
  credDefId : String
  value : RevocationRegistryDefinitionValue

structure CredentialOffer where
  schemaId : String
  credDefId : String
  nonce : M.Nonce

structure CredentialRequest where
  proverDid : String
  credDefId : String
  blindedMs : M.BlindedSecrets
  nonce : M.Nonce

structure Credential where
  schemaId : String
  credDefId : String
  revRegId : Option String
  values : M.Values
  signature : M.Signature
  revReg : Option M.Accumulator
  witness : Option M.Witness

/-- The records of an issuer, each kind under the id that it was stored with. -/
structure IssuerWallet where
  credDefs : AssocMap String (CredentialDefinition M)
  privateKeys : AssocMap String M.PrivateKey
  schemaIds : AssocMap String String
  revRegDefs : AssocMap String RevocationRegistryDefinition
  revRegs : AssocMap String M.Accumulator
  revRegPrivateKeys : AssocMap String M.RegistryKey
  revRegInfos : AssocMap String RevocationRegistryInfo

/-- Signing includes building the credential's values and the key from its parts. -/
structure Library where
  signCredential : CredentialOffer M → CredentialRequest M → M.Values → M.PublicKey →
    M.PrivateKey → Except IndyError M.Signature
  signCredentialWithRevoc : CredentialOffer M → CredentialRequest M → M.Values → M.PublicKey →
    M.PrivateKey → (revIdx maxCredNum : ℕ) → (issuanceByDefault : Bool) → M.Accumulator →
    M.RegistryKey → Except IndyError (M.Signature × M.Accumulator × Option M.Delta)
  newWitness : (revIdx maxCredNum : ℕ) → (issuanceByDefault : Bool) → M.Accumulator →
    (issued revoked : Finset ℕ) → Except IndyError M.Witness

inductive Step where
  | newTailsAccessor
  | serializeCredential
  | serializeDelta
  | updateRevReg
  | updateRevRegInfo
  deriving DecidableEq

/-- What refuses during one call, and the profile it was built with. -/
structure World where
  refusal : Step → Option IndyError
  overflowChecks : Bool

variable {M}

def getIndyObject {α : Type} (records : AssocMap String α) (id : String) : IndyResult α :=
  ofOption (errMsg .walletItemNotFound "Wallet item not found") (records.lookup id)

def World.attempt (world : World) (step : Step) : IndyResult Unit :=
  match world.refusal step with
  | none => .ok ()
  | some e => .err e

def answer {α : Type} : Except IndyError α → IndyResult α
  | .ok a => .ok a
  | .error e => .err e

/-- The records of a registry, with the number of the next credential in the info record. -/
structure OpenRegistry (M : Material) where
  revRegDef : RevocationRegistryDefinition
  revReg : M.Accumulator
  revKeyPriv : M.RegistryKey
  revRegInfo : RevocationRegistryInfo

def nextInfo (issuanceType : IssuanceType) (info : RevocationRegistryInfo) (currId : ℕ) :
    RevocationRegistryInfo where
  currId := currId
  usedIds :=
    match issuanceType with
    | .issuanceOnDemand => insert currId info.usedIds
    | .issuanceByDefault => info.usedIds

def openRegistry (world : World) (wallet : IssuerWallet M) (revRegId : String)
    (blobStorageReaderHandle : Option ℤ) : IndyResult (OpenRegistry M) := do
  let revRegDef ← getIndyObject wallet.revRegDefs revRegId
  let revReg ← getIndyObject wallet.revRegs revRegId
  let revKeyPriv ← getIndyObject wallet.revRegPrivateKeys revRegId
  let revRegInfo ← getIndyObject wallet.revRegInfos revRegId
  let currId ← wordAdd 32 world.overflowChecks 1 revRegInfo.currId
  if revRegDef.value.maxCredNum < currId then
    .err (errMsg .revocationRegistryFull "RevocationRegistryAccumulator is full")
  else
    let _ ← ofOption (errMsg .invalidStructure "TailsReaderHandle not found")
      blobStorageReaderHandle
    world.attempt .newTailsAccessor
    pure ⟨revRegDef, revReg, revKeyPriv,
      nextInfo revRegDef.value.issuanceType revRegInfo currId⟩

def witnessFor (library : Library M) (registry : OpenRegistry M) (revReg : M.Accumulator) :
    Except IndyError M.Witness :=
  match registry.revRegDef.value.issuanceType with
  | .issuanceOnDemand =>
    library.newWitness registry.revRegInfo.currId registry.revRegDef.value.maxCredNum false revReg
      registry.revRegInfo.usedIds ∅
  | .issuanceByDefault =>
    library.newWitness registry.revRegInfo.currId registry.revRegDef.value.maxCredNum true revReg
      ∅ registry.revRegInfo.usedIds

def serializeDelta (world : World) (delta : Option M.Delta) : IndyResult Unit :=
  match delta with
  | some _ => world.attempt .serializeDelta
  | none => .ok ()

/-- A credential with what is to be stored and told of its registry. -/
structure Issued (M : Material) where
  credential : Credential M
  registry : Option (String × M.Accumulator × RevocationRegistryInfo)
  delta : Option M.Delta

section

variable (library : Library M) (world : World) (wallet : IssuerWallet M)
  (credOffer : CredentialOffer M) (credRequest : CredentialRequest M) (credValues : M.Values)

/-- Everything that comes before the first write. -/
def issueCredential (revRegId : Option String) (blobStorageReaderHandle : Option ℤ) :
    IndyResult (Issued M) := do
  let credDef ← getIndyObject wallet.credDefs credOffer.credDefId
  let credDefPrivKey ← getIndyObject wallet.privateKeys credRequest.credDefId
  let schemaId ← getIndyObject wallet.schemaIds credOffer.credDefId
  match revRegId with
  | some revRegId => do
    let registry ← openRegistry world wallet revRegId blobStorageReaderHandle
    let (signature, revReg, delta) ← answer (library.signCredentialWithRevoc credOffer credRequest
      credValues credDef.publicKey credDefPrivKey registry.revRegInfo.currId
      registry.revRegDef.value.maxCredNum registry.revRegDef.value.issuanceType.toBool
      registry.revReg registry.revKeyPriv)
    let witness ← answer (witnessFor library registry revReg)
    world.attempt .serializeCredential
    serializeDelta world delta
    pure ⟨⟨schemaId, credRequest.credDefId, some revRegId, credValues, signature, some revReg,
      some witness⟩, some (revRegId, revReg, registry.revRegInfo), delta⟩
  | none => do
    let signature ← answer (library.signCredential credOffer credRequest credValues
      credDef.publicKey credDefPrivKey)
    world.attempt .serializeCredential
    pure ⟨⟨schemaId, credRequest.credDefId, none, credValues, signature, none, none⟩, none, none⟩

/-- The answer to the caller: the credential, its number in the registry, and the delta. -/
def Issued.answer (issued : Issued M) : Credential M × Option String × Option M.Delta :=
  (issued.credential, issued.registry.map (fun r => r.2.2.currId.repr), issued.delta)

def storeIssued (issued : Issued M) : IndyResult Unit × IssuerWallet M :=
  match issued.registry with
  | none => (.ok (), wallet)
  | some (revRegId, revReg, info) =>
    match world.refusal .updateRevReg with
    | some e => (.err e, wallet)
    | none =>
      let stored := { wallet with revRegs := wallet.revRegs.insert revRegId revReg }
      match world.refusal .updateRevRegInfo with
      | some e => (.err e, stored)
      | none =>
        (.ok (), { stored with revRegInfos := wallet.revRegInfos.insert revRegId info })

def newCredential (revRegId : Option String) (blobStorageReaderHandle : Option ℤ) :
    IndyResult (Credential M × Option String × Option M.Delta) × IssuerWallet M :=
  match issueCredential library world wallet credOffer credRequest credValues revRegId
      blobStorageReaderHandle with
  | .ok issued =>
    ((fun _ => issued.answer) <$> (storeIssued world wallet issued).1,
      (storeIssued world wallet issued).2)
  | .err e => (.err e, wallet)
  | .panic => (.panic, wallet)

/-! ### One definition -/

/-- What was signed with, and what the credential says, is stored under one definition. -/
def MadeFor (revRegId : Option String) (credential : Credential M) : Prop :=
  ∃ credDef credDefPrivKey, wallet.credDefs.lookup credential.credDefId = some credDef ∧
    wallet.privateKeys.lookup credential.credDefId = some credDefPrivKey ∧
    wallet.schemaIds.lookup credential.credDefId = some credential.schemaId ∧
    match revRegId with
    | none => library.signCredential credOffer credRequest credValues credDef.publicKey
        credDefPrivKey = .ok credential.signature
    | some revRegId => ∃ revRegDef revReg revKeyPriv revIdx revReg' delta,
        wallet.revRegDefs.lookup revRegId = some revRegDef ∧
        revRegDef.credDefId = credential.credDefId ∧
        wallet.revRegs.lookup revRegId = some revReg ∧
        wallet.revRegPrivateKeys.lookup revRegId = some revKeyPriv ∧
        library.signCredentialWithRevoc credOffer credRequest credValues credDef.publicKey
            credDefPrivKey revIdx revRegDef.value.maxCredNum revRegDef.value.issuanceType.toBool
            revReg revKeyPriv = .ok (credential.signature, revReg', delta)

/-- Offer and request name one definition, and a stored registry is of it. -/
def SameDefinition (revRegId : Option String) : Prop :=
  credOffer.credDefId = credRequest.credDefId ∧
    ∀ id ∈ revRegId, ∀ revRegDef ∈ wallet.revRegDefs.lookup id,
      revRegDef.credDefId = credOffer.credDefId

def SameRegistries (wallet' : IssuerWallet M) : Prop :=
  ∀ id, wallet'.revRegs.lookup id = wallet.revRegs.lookup id ∧
    wallet'.revRegInfos.lookup id = wallet.revRegInfos.lookup id

/-- What is issued is of one definition; what would not be is refused. -/
structure Consistent (revRegId : Option String) (blobStorageReaderHandle : Option ℤ) : Prop where
  made : ∀ credential credRevId delta,
    (newCredential library world wallet credOffer credRequest credValues revRegId
      blobStorageReaderHandle).1 = .ok (credential, credRevId, delta) →
    MadeFor library wallet credOffer credRequest credValues revRegId credential
  refused : ¬ SameDefinition wallet credOffer credRequest revRegId →
    (∃ e, (newCredential library world wallet credOffer credRequest credValues revRegId
      blobStorageReaderHandle).1 = .err e) ∧
    SameRegistries wallet (newCredential library world wallet credOffer credRequest credValues
      revRegId blobStorageReaderHandle).2

/-- The four records of a registry. -/
def StoredRegistry (revRegId : String)
    (revRegDef : RevocationRegistryDefinition) (revReg : M.Accumulator)
    (revKeyPriv : M.RegistryKey) (info : RevocationRegistryInfo) : Prop :=
  wallet.revRegDefs.lookup revRegId = some revRegDef ∧
    wallet.revRegs.lookup revRegId = some revReg ∧
    wallet.revRegPrivateKeys.lookup revRegId = some revKeyPriv ∧
    wallet.revRegInfos.lookup revRegId = some info

/-- The registry's records let a credential be issued and its accumulator be changed. -/
def RegistryReady (credDef : CredentialDefinition M) (credDefPrivKey : M.PrivateKey)
    (revRegDef : RevocationRegistryDefinition) (revReg : M.Accumulator)
    (revKeyPriv : M.RegistryKey) (info : RevocationRegistryInfo) (currId : ℕ) : Prop :=
  currId ≤ revRegDef.value.maxCredNum ∧ world.refusal .newTailsAccessor = none ∧
    ∃ signature revReg' delta witness,
      library.signCredentialWithRevoc credOffer credRequest credValues credDef.publicKey
        credDefPrivKey currId revRegDef.value.maxCredNum revRegDef.value.issuanceType.toBool
        revReg revKeyPriv = .ok (signature, revReg', delta) ∧
      witnessFor library ⟨revRegDef, revReg, revKeyPriv,
        nextInfo revRegDef.value.issuanceType info currId⟩ revReg' = .ok witness ∧
      world.refusal .serializeCredential = none ∧
      (delta.isSome → world.refusal .serializeDelta = none) ∧
      world.refusal .updateRevReg = none ∧
      (world.refusal .updateRevRegInfo = none ∨ revReg' ≠ revReg)

/-- Apart from the definitions, nothing refuses the call before it has changed the registry: every
record is there, the registry has room (or its count overflows), and the library, the tails, the
serializer and the wallet take part. -/
def Unhindered (revRegId : Option String) (blobStorageReaderHandle : Option ℤ) : Prop :=
  ∃ credDef credDefPrivKey schemaId, wallet.credDefs.lookup credOffer.credDefId = some credDef ∧
    wallet.privateKeys.lookup credRequest.credDefId = some credDefPrivKey ∧
    wallet.schemaIds.lookup credOffer.credDefId = some schemaId ∧
    match revRegId with
    | none => world.refusal .serializeCredential = none ∧ ∃ signature,
        library.signCredential credOffer credRequest credValues credDef.publicKey
          credDefPrivKey = .ok signature
    | some revRegId => ∃ revRegDef revReg revKeyPriv info,
        StoredRegistry wallet revRegId revRegDef revReg revKeyPriv info ∧
        ((wordAdd 32 world.overflowChecks 1 info.currId : IndyResult ℕ) = .panic ∨
          blobStorageReaderHandle.isSome ∧
          ∃ currId, (wordAdd 32 world.overflowChecks 1 info.currId : IndyResult ℕ) =
              .ok currId ∧
            RegistryReady library world credOffer credRequest credValues credDef credDefPrivKey
              revRegDef revReg revKeyPriv info currId)

end

@[simp] theorem getIndyObject_eq_ok {α : Type} {records : AssocMap String α} {id : String}
    {a : α} : getIndyObject records id = .ok a ↔ records.lookup id = some a :=
  ofOption_eq_ok

@[simp] theorem getIndyObject_ne_panic {α : Type} (records : AssocMap String α) (id : String) :
    getIndyObject records id ≠ .panic := by
  rw [getIndyObject]
  cases records.lookup id with
  | some a => exact ok_ne_panic a
  | none => exact err_ne_panic _

@[simp] theorem attempt_eq_ok {world : World} {step : Step} {u : Unit} :
    world.attempt step = .ok u ↔ world.refusal step = none := by
  cases h : world.refusal step <;> simp [World.attempt, h]

@[simp] theorem attempt_ne_panic (world : World) (step : Step) :
    world.attempt step ≠ .panic := by
  cases h : world.refusal step <;> simp [World.attempt, h]

@[simp] theorem serializeDelta_eq_ok {world : World} {delta : Option M.Delta} {u : Unit} :
    serializeDelta world delta = .ok u ↔
      (delta.isSome → world.refusal .serializeDelta = none) := by
  cases delta <;> simp [serializeDelta]

@[simp] theorem serializeDelta_ne_panic (world : World) (delta : Option M.Delta) :
    serializeDelta world delta ≠ .panic := by
  cases delta <;> simp [serializeDelta]

@[simp] theorem answer_eq_ok {α : Type} {x : Except IndyError α} {a : α} :
    answer x = .ok a ↔ x = .ok a := by
  cases x <;> simp [answer]

@[simp] theorem answer_ne_panic {α : Type} (x : Except IndyError α) : answer x ≠ .panic := by
  cases x <;> simp [answer]

section

variable {library : Library M} {world : World} {wallet : IssuerWallet M}
  {credOffer : CredentialOffer M} {credRequest : CredentialRequest M} {credValues : M.Values}
  {blobStorageReaderHandle : Option ℤ} {revRegId : String} {issued : Issued M}

theorem openRegistry_eq_panic :
    openRegistry world wallet revRegId blobStorageReaderHandle = .panic ↔
      ∃ revRegDef revReg revKeyPriv info,
        StoredRegistry wallet revRegId revRegDef revReg revKeyPriv info ∧
        (wordAdd 32 world.overflowChecks 1 info.currId : IndyResult ℕ) = .panic := by
  simp only [openRegistry, bind_eq_panic_iff, getIndyObject_ne_panic, getIndyObject_eq_ok,
    false_or, StoredRegistry]
  constructor
  · rintro ⟨revRegDef, hdef, revReg, hreg, key, hkey, info, hinfo, hadd | ⟨currId, -, hrest⟩⟩
    · exact ⟨revRegDef, revReg, key, info, ⟨hdef, hreg, hkey, hinfo⟩, hadd⟩
    · split at hrest
      · cases hrest
      · cases blobStorageReaderHandle with
        | none => cases hrest
        | some handle =>
          rw [ofOption_some, ok_bind, bind_eq_panic_iff] at hrest
          rcases hrest with hrest | ⟨u, -, hrest⟩
          · exact absurd hrest (attempt_ne_panic _ _)
          · cases hrest
  · rintro ⟨revRegDef, revReg, key, info, ⟨hdef, hreg, hkey, hinfo⟩, hadd⟩
    exact ⟨revRegDef, hdef, revReg, hreg, key, hkey, info, hinfo, .inl hadd⟩

theorem openRegistry_eq_ok {registry : OpenRegistry M} :
    openRegistry world wallet revRegId blobStorageReaderHandle = .ok registry ↔
      ∃ revRegDef revReg revKeyPriv info currId,
        StoredRegistry wallet revRegId revRegDef revReg revKeyPriv info ∧
        (wordAdd 32 world.overflowChecks 1 info.currId : IndyResult ℕ) = .ok currId ∧
        currId ≤ revRegDef.value.maxCredNum ∧ blobStorageReaderHandle.isSome ∧
        world.refusal .newTailsAccessor = none ∧
        registry = ⟨revRegDef, revReg, revKeyPriv,
          nextInfo revRegDef.value.issuanceType info currId⟩ := by
  simp only [openRegistry, bind_eq_ok_iff, getIndyObject_eq_ok, StoredRegistry]
  constructor
  · rintro ⟨revRegDef, hdef, revReg, hreg, key, hkey, info, hinfo, currId, hadd, hrest⟩
    split at hrest
    · cases hrest
    · rename_i hroom
      obtain ⟨handle, hhandle, hrest⟩ := bind_eq_ok_iff.mp hrest
      obtain ⟨u, htails, hrest⟩ := bind_eq_ok_iff.mp hrest
      cases hrest
      refine ⟨revRegDef, revReg, key, info, currId, ⟨hdef, hreg, hkey, hinfo⟩, hadd,
        Nat.not_lt.mp hroom, ?_, attempt_eq_ok.mp htails, rfl⟩
      rw [ofOption_eq_ok.mp hhandle]
      rfl
  · rintro ⟨revRegDef, revReg, key, info, currId, ⟨hdef, hreg, hkey, hinfo⟩, hadd, hroom, hhandle,
      htails, rfl⟩
    obtain ⟨handle, rfl⟩ := isSome_iff_exists.mp hhandle
    refine ⟨revRegDef, hdef, revReg, hreg, key, hkey, info, hinfo, currId, hadd, ?_⟩
    rw [if_neg (Nat.not_lt.mpr hroom), ofOption_some, ok_bind]
    exact bind_eq_ok_iff.mpr ⟨(), attempt_eq_ok.mpr htails, rfl⟩

theorem issueCredential_none_eq_ok :
    issueCredential library world wallet credOffer credRequest credValues none
        blobStorageReaderHandle = .ok issued ↔
      ∃ credDef credDefPrivKey schemaId signature,
        wallet.credDefs.lookup credOffer.credDefId = some credDef ∧
        wallet.privateKeys.lookup credRequest.credDefId = some credDefPrivKey ∧
        wallet.schemaIds.lookup credOffer.credDefId = some schemaId ∧
        library.signCredential credOffer credRequest credValues credDef.publicKey
          credDefPrivKey = .ok signature ∧
        world.refusal .serializeCredential = none ∧
        issued = ⟨⟨schemaId, credRequest.credDefId, none, credValues, signature, none, none⟩, none,
          none⟩ := by
  simp only [issueCredential, bind_eq_ok_iff, getIndyObject_eq_ok, answer_eq_ok,
    attempt_eq_ok, pure_eq_ok, Outcome.ok.injEq]
  constructor
  · rintro ⟨credDef, hdef, key, hkey, schemaId, hschema, signature, hsign, u, hser, rfl⟩
    exact ⟨credDef, key, schemaId, signature, hdef, hkey, hschema, hsign, hser, rfl⟩
  · rintro ⟨credDef, key, schemaId, signature, hdef, hkey, hschema, hsign, hser, rfl⟩
    exact ⟨credDef, hdef, key, hkey, schemaId, hschema, signature, hsign, (), hser, rfl⟩

theorem issueCredential_none_ne_panic :
    issueCredential library world wallet credOffer credRequest credValues none
      blobStorageReaderHandle ≠ .panic := by
  simp [issueCredential, bind_eq_panic_iff]

theorem issueCredential_some_eq_panic :
    issueCredential library world wallet credOffer credRequest credValues (some revRegId)
        blobStorageReaderHandle = .panic ↔
      (wallet.credDefs.lookup credOffer.credDefId).isSome ∧
        (wallet.privateKeys.lookup credRequest.credDefId).isSome ∧
        (wallet.schemaIds.lookup credOffer.credDefId).isSome ∧
        openRegistry world wallet revRegId blobStorageReaderHandle = .panic := by
  simp only [issueCredential, bind_eq_panic_iff, getIndyObject_ne_panic,
    getIndyObject_eq_ok, answer_ne_panic, attempt_ne_panic, serializeDelta_ne_panic, false_or,
    isSome_iff_exists]
  constructor
  · rintro ⟨credDef, hdef, key, hkey, schemaId, hschema,
      hopen | ⟨_, -, _, -, _, -, _, -, _, -, hpure⟩⟩
    · exact ⟨⟨credDef, hdef⟩, ⟨key, hkey⟩, ⟨schemaId, hschema⟩, hopen⟩
    · cases hpure
  · rintro ⟨⟨credDef, hdef⟩, ⟨key, hkey⟩, ⟨schemaId, hschema⟩, hopen⟩
    exact ⟨credDef, hdef, key, hkey, schemaId, hschema, .inl hopen⟩

theorem issueCredential_some_eq_ok :
    issueCredential library world wallet credOffer credRequest credValues (some revRegId)
        blobStorageReaderHandle = .ok issued ↔
      ∃ credDef credDefPrivKey schemaId registry signature revReg delta witness,
        wallet.credDefs.lookup credOffer.credDefId = some credDef ∧
        wallet.privateKeys.lookup credRequest.credDefId = some credDefPrivKey ∧
        wallet.schemaIds.lookup credOffer.credDefId = some schemaId ∧
        openRegistry world wallet revRegId blobStorageReaderHandle = .ok registry ∧
        library.signCredentialWithRevoc credOffer credRequest credValues credDef.publicKey
          credDefPrivKey registry.revRegInfo.currId registry.revRegDef.value.maxCredNum
          registry.revRegDef.value.issuanceType.toBool registry.revReg registry.revKeyPriv =
            .ok (signature, revReg, delta) ∧
        witnessFor library registry revReg = .ok witness ∧
        world.refusal .serializeCredential = none ∧
        (delta.isSome → world.refusal .serializeDelta = none) ∧
        issued = ⟨⟨schemaId, credRequest.credDefId, some revRegId, credValues, signature,
          some revReg, some witness⟩, some (revRegId, revReg, registry.revRegInfo), delta⟩ := by
  simp only [issueCredential, bind_eq_ok_iff, getIndyObject_eq_ok, answer_eq_ok,
    attempt_eq_ok, serializeDelta_eq_ok, pure_eq_ok, Outcome.ok.injEq]
  constructor
  · rintro ⟨credDef, hdef, key, hkey, schemaId, hschema, registry, hopen,
      ⟨signature, revReg, delta⟩, hsign, witness, hwitness, u, hser, v, hdelta, rfl⟩
    exact ⟨credDef, key, schemaId, registry, signature, revReg, delta, witness, hdef, hkey,
      hschema, hopen, hsign, hwitness, hser, hdelta, rfl⟩
  · rintro ⟨credDef, key, schemaId, registry, signature, revReg, delta, witness, hdef, hkey,
      hschema, hopen, hsign, hwitness, hser, hdelta, rfl⟩
    exact ⟨credDef, hdef, key, hkey, schemaId, hschema, registry, hopen, ⟨signature, revReg, delta⟩,
      hsign, witness, hwitness, (), hser, (), hdelta, rfl⟩

/-! ### Refusals -/

/-- Storing returns, or fails after it has changed the accumulator. -/
def Leaves (world : World) (wallet : IssuerWallet M) (issued : Issued M) : Prop :=
  match issued.registry with
  | none => True
  | some (revRegId, revReg, _) => world.refusal .updateRevReg = none ∧
      (world.refusal .updateRevRegInfo = none ∨ wallet.revRegs.lookup revRegId ≠ some revReg)

theorem sameRegistries_refl (wallet : IssuerWallet M) : SameRegistries wallet wallet :=
  fun _ => ⟨rfl, rfl⟩

theorem storeIssued_refused_iff (issued : Issued M) :
    ((∃ e, (storeIssued world wallet issued).1 = .err e) ∧
      SameRegistries wallet (storeIssued world wallet issued).2) ↔
        ¬ Leaves world wallet issued := by
  rw [storeIssued, Leaves]
  cases issued.registry with
  | none => simp
  | some r =>
    obtain ⟨revRegId, revReg, info⟩ := r
    cases hreg : world.refusal .updateRevReg with
    | some e => simp [sameRegistries_refl]
    | none =>
      cases hinfo : world.refusal .updateRevRegInfo with
      | none => simp
      | some e =>
        simp only [Outcome.err.injEq, exists_eq', true_and, reduceCtorEq, false_or, not_not]
        constructor
        · intro hsame
          rw [← (hsame revRegId).1]
          exact AList.lookup_insert _
        · intro hlookup id
          refine ⟨?_, rfl⟩
          by_cases hid : id = revRegId
          · rw [hid, hlookup]
            exact AList.lookup_insert _
          · exact AList.lookup_insert_ne hid

theorem newCredential_refused_iff (revRegId : Option String) :
    ((∃ e, (newCredential library world wallet credOffer credRequest credValues revRegId
        blobStorageReaderHandle).1 = .err e) ∧
      SameRegistries wallet (newCredential library world wallet credOffer credRequest credValues
        revRegId blobStorageReaderHandle).2) ↔
      ¬ (issueCredential library world wallet credOffer credRequest credValues revRegId
          blobStorageReaderHandle = .panic ∨
        ∃ issued, issueCredential library world wallet credOffer credRequest credValues revRegId
          blobStorageReaderHandle = .ok issued ∧ Leaves world wallet issued) := by
  rw [newCredential]
  cases issueCredential library world wallet credOffer credRequest credValues revRegId
      blobStorageReaderHandle with
  | err e => simp [sameRegistries_refl]
  | panic => simp
  | ok issued =>
    have hstore := @storeIssued_refused_iff _ world wallet issued
    simp only [reduceCtorEq, Outcome.ok.injEq, exists_eq_left', false_or]
    rw [← hstore]
    cases (storeIssued world wallet issued).1 <;> simp

theorem unhindered_iff (revRegId : Option String) :
    Unhindered library world wallet credOffer credRequest credValues revRegId
        blobStorageReaderHandle ↔
      issueCredential library world wallet credOffer credRequest credValues revRegId
          blobStorageReaderHandle = .panic ∨
        ∃ issued, issueCredential library world wallet credOffer credRequest credValues revRegId
          blobStorageReaderHandle = .ok issued ∧ Leaves world wallet issued := by
  cases revRegId with
  | none =>
    simp only [issueCredential_none_ne_panic, false_or, issueCredential_none_eq_ok, Unhindered]
    constructor
    · rintro ⟨credDef, key, schemaId, hdef, hkey, hschema, hser, signature, hsign⟩
      exact ⟨_, ⟨credDef, key, schemaId, signature, hdef, hkey, hschema, hsign, hser, rfl⟩, trivial⟩
    · rintro ⟨_, ⟨credDef, key, schemaId, signature, hdef, hkey, hschema, hsign, hser, rfl⟩, -⟩
      exact ⟨credDef, key, schemaId, hdef, hkey, hschema, hser, signature, hsign⟩
  | some revRegId =>
    rw [issueCredential_some_eq_panic]
    simp only [issueCredential_some_eq_ok, Unhindered, isSome_iff_exists]
    constructor
    · rintro ⟨credDef, key, schemaId, hdef, hkey, hschema, revRegDef, revReg, revKey, info, hstored,
        hpanic | ⟨hhandle, currId, hadd, hready⟩⟩
      · exact .inl ⟨⟨credDef, hdef⟩, ⟨key, hkey⟩, ⟨schemaId, hschema⟩, openRegistry_eq_panic.mpr
          ⟨revRegDef, revReg, revKey, info, hstored, hpanic⟩⟩
      · obtain ⟨hroom, htails, signature, revReg', delta, witness, hsign, hwitness, hser, hdelta,
          hupdate, hinfo⟩ := hready
        have hopen := openRegistry_eq_ok.mpr ⟨revRegDef, revReg, revKey, info, currId, hstored,
          hadd, hroom, isSome_iff_exists.mpr hhandle, htails, rfl⟩
        refine .inr ⟨_, ⟨credDef, key, schemaId, _, signature, revReg', delta, witness, hdef,
          hkey, hschema, hopen, hsign, hwitness, hser,
          fun h => hdelta (isSome_iff_exists.mpr h), rfl⟩, hupdate, hinfo.imp_right ?_⟩
        intro hne heq
        rw [hstored.2.1, Option.some.injEq] at heq
        exact hne heq.symm
    · rintro (⟨⟨credDef, hdef⟩, ⟨key, hkey⟩, ⟨schemaId, hschema⟩, hopen⟩ |
        ⟨_, ⟨credDef, key, schemaId, registry, signature, revReg', delta, witness, hdef, hkey,
          hschema, hopen, hsign, hwitness, hser, hdelta, rfl⟩, hupdate, hinfo⟩)
      · obtain ⟨revRegDef, revReg, revKey, info, hstored, hpanic⟩ := openRegistry_eq_panic.mp hopen
        exact ⟨credDef, key, schemaId, hdef, hkey, hschema, revRegDef, revReg, revKey, info,
          hstored, .inl hpanic⟩
      · obtain ⟨revRegDef, revReg, revKey, info, currId, hstored, hadd, hroom, hhandle, htails,
          rfl⟩ := openRegistry_eq_ok.mp hopen
        refine ⟨credDef, key, schemaId, hdef, hkey, hschema, revRegDef, revReg, revKey, info,
          hstored, .inr ⟨isSome_iff_exists.mp hhandle, currId, hadd, hroom, htails,
            signature, revReg', delta, witness, hsign, hwitness, hser,
            fun h => hdelta (isSome_iff_exists.mp h), hupdate, hinfo.imp_right ?_⟩⟩
        rintro hne rfl
        exact hne hstored.2.1

theorem madeFor_of_issued {revRegId : Option String}
    (hsame : SameDefinition wallet credOffer credRequest revRegId)
    (h : issueCredential library world wallet credOffer credRequest credValues revRegId
      blobStorageReaderHandle = .ok issued) :
    MadeFor library wallet credOffer credRequest credValues revRegId issued.credential := by
  obtain ⟨hid, hregistry⟩ := hsame
  cases revRegId with
  | none =>
    obtain ⟨credDef, key, schemaId, signature, hdef, hkey, hschema, hsign, -, rfl⟩ :=
      issueCredential_none_eq_ok.mp h
    rw [hid] at hdef hschema
    exact ⟨credDef, key, hdef, hkey, hschema, hsign⟩
  | some revRegId =>
    obtain ⟨credDef, key, schemaId, registry, signature, revReg', delta, witness, hdef, hkey,
      hschema, hopen, hsign, -, -, -, rfl⟩ := issueCredential_some_eq_ok.mp h
    obtain ⟨revRegDef, revReg, revKey, info, currId, hstored, -, -, -, -, rfl⟩ :=
      openRegistry_eq_ok.mp hopen
    have hbelongs := hregistry revRegId rfl revRegDef hstored.1
    rw [hid] at hdef hschema hbelongs
    exact ⟨credDef, key, hdef, hkey, hschema, revRegDef, revReg, revKey, _, revReg', delta,
      hstored.1, hbelongs, hstored.2.1, hstored.2.2.1, hsign⟩

end

/-- A call keeps to one definition exactly when offer, request and registry are of one, or
something else refuses it in time. -/
theorem consistent_iff (library : Library M) (world : World) (wallet : IssuerWallet M)
    (credOffer : CredentialOffer M) (credRequest : CredentialRequest M) (credValues : M.Values)
    (revRegId : Option String) (blobStorageReaderHandle : Option ℤ) :
    Consistent library world wallet credOffer credRequest credValues revRegId
        blobStorageReaderHandle ↔
      SameDefinition wallet credOffer credRequest revRegId ∨
        ¬ Unhindered library world wallet credOffer credRequest credValues revRegId
          blobStorageReaderHandle := by
  have hrefused := @newCredential_refused_iff _ library world wallet credOffer credRequest
    credValues blobStorageReaderHandle revRegId
  rw [← unhindered_iff] at hrefused
  constructor
  · intro h
    by_cases hsame : SameDefinition wallet credOffer credRequest revRegId
    · exact .inl hsame
    · exact .inr (hrefused.mp (h.refused hsame))
  · intro h
    refine ⟨?_, fun hsame => hrefused.mpr (h.resolve_left hsame)⟩
    intro credential credRevId delta hok
    have hsame : SameDefinition wallet credOffer credRequest revRegId := by
      refine h.resolve_right (fun hnot => ?_)
      obtain ⟨⟨e, he⟩, -⟩ := hrefused.mpr hnot
      rw [hok] at he
      cases he
    rw [newCredential] at hok
    split at hok
    · rename_i issued hissued
      obtain ⟨u, -, heq⟩ := map_eq_ok_iff.mp hok
      cases heq
      exact madeFor_of_issued hsame hissued
    · cases hok
    · cases hok

/-! ### Offer and request of two definitions -/

def plain : Material where
  PublicKey := String
  PrivateKey := String
  Accumulator := ℕ
  RegistryKey := String
  BlindedSecrets := String
  Nonce := ℕ
  Values := List (String × String)
  Signature := String × String
  Delta := Unit
  Witness := Unit

/-- A library that signs whatever it is given and writes down the keys. -/
def signingLibrary : Library plain where
  signCredential _ _ _ publicKey privateKey := .ok (publicKey, privateKey)
  signCredentialWithRevoc _ _ _ publicKey privateKey revIdx _ _ revReg _ :=
    .ok ((publicKey, privateKey), Nat.add revReg revIdx, none)
  newWitness _ _ _ _ _ _ := .ok ()

def quietWorld : World where
  refusal _ := none
  overflowChecks := true

def twoDefinitions : IssuerWallet plain where
  credDefs := AList.insert "first" ⟨"first", "7", "public key of first"⟩
    (AList.insert "second" ⟨"second", "8", "public key of second"⟩ ∅)
  privateKeys := AList.insert "first" "private key of first"
    (AList.insert "second" "private key of second" ∅)
  schemaIds := AList.insert "first" "schema of first" (AList.insert "second" "schema of second" ∅)
  revRegDefs := ∅
  revRegs := ∅
  revRegPrivateKeys := ∅
  revRegInfos := ∅

/-- A request edited to name the second definition is answered with a credential of the second
that has the schema of the first and a signature with the keys of both. -/
theorem editedRequest_issued :
    (newCredential signingLibrary quietWorld twoDefinitions ⟨"schema of first", "first", (1 : ℕ)⟩
        ⟨"did", "second", "blinded", (2 : ℕ)⟩ ([("name", "Alex")] : List (String × String)) none
        none).1 =
      .ok (⟨"schema of first", "second", none, [("name", "Alex")],
        ("public key of first", "private key of second"), none, none⟩, none, none) ∧
    ¬ Consistent signingLibrary quietWorld twoDefinitions ⟨"schema of first", "first", (1 : ℕ)⟩
        ⟨"did", "second", "blinded", (2 : ℕ)⟩ ([("name", "Alex")] : List (String × String)) none
        none := by
  have hissued : (newCredential signingLibrary quietWorld twoDefinitions
      ⟨"schema of first", "first", (1 : ℕ)⟩ ⟨"did", "second", "blinded", (2 : ℕ)⟩
      ([("name", "Alex")] : List (String × String)) none none).1 =
        .ok (⟨"schema of first", "second", none, [("name", "Alex")],
          ("public key of first", "private key of second"), none, none⟩, none, none) := rfl
  refine ⟨hissued, fun h => ?_⟩
  obtain ⟨⟨e, he⟩, -⟩ := h.refused (fun hsame => absurd hsame.1 (by decide))
  rw [hissued] at he
  cases he

end IndySdk.Issuance
