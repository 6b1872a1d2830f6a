import IndySdk.CredentialExchange
import IndySdk.Depth
import IndySdk.Json

/-!
# Rewriting the keys of a JSON value

An invite is shown with short keys and read back with long ones. The keys of an object are taken
out of its map one after another, the last first, and each member goes back into the same map
under its new key. What a key becomes may depend on the new key of the object it stands in.
-/

namespace IndySdk.Vcx.Invite

class KeyMatch (T : Type) where
  isMatch : T → String → List String → Bool

instance : KeyMatch String where
  isMatch pattern key _ := key == pattern

instance : KeyMatch (String × Option String) where
  isMatch pattern key context :=
    if key == pattern.1 then
      match context.getLast?, pattern.2 with
      | some parent, some expectedParent => parent == expectedParent
      | some _, none => false
      | none, expectedParent => expectedParent.isNone
    else false

section

variable {T : Type} [KeyMatch T] (remap : List (T × String))

/-- The new key that the first matching rule gives. -/
def newKey (context : List String) (k : String) : String :=
  match remap.find? (fun rule => KeyMatch.isMatch rule.1 k context) with
  | some rule => rule.2
  | none => k

/-- One round of the loop over the keys of an object. -/
def rewriteMember (rewriteValue : List String → Json → VcxResult Json) (context : List String)
    (map : List (String × Json)) (k : String) : VcxResult (List (String × Json)) :=
  match Json.member? k map with
  | none => .err ⟨.other 1016, "Unexpected key value mutation", []⟩
  | some value => do
    let value ← rewriteValue (context ++ [newKey remap context k]) value
    pure (Json.putMember (newKey remap context k) value (map.filter (fun m => m.1 ≠ k)))

/-- The recursion, down to the given depth. -/
def mappedKeyRewriteIn : ℕ → List String → Json → VcxResult Json
  | 0, _, _ => .panic
  | depth + 1, context, .obj map => do
    let keys := map.map Prod.fst
    let map ← keys.reverse.foldlM (rewriteMember remap (mappedKeyRewriteIn depth) context) map
    pure (.obj map)
  | _ + 1, _, val => .ok val

def mappedKeyRewrite (depth : ℕ) (val : Json) : VcxResult Json :=
  mappedKeyRewriteIn remap depth [] val

/-! ## What rewriting is for -/

mutual

/-- Every key of every object renamed at once. -/
def renameKeys (context : List String) : Json → Json
  | .arr elements => .arr (renameElements context elements)
  | .obj members => .obj (renameMembers context members)
  | j => j

def renameElements (context : List String) : List Json → List Json
  | [] => []
  | j :: elements => renameKeys context j :: renameElements context elements

def renameMembers (context : List String) : List (String × Json) → List (String × Json)
  | [] => []
  | (k, j) :: members =>
    Json.putMember (newKey remap context k) (renameKeys (context ++ [newKey remap context k]) j)
      (renameMembers context members)

end

/-- No object has two members with one new key. -/
inductive Distinct : List String → Json → Prop
  | obj {context : List String} {members : List (String × Json)}
      (keys : (members.map (fun m => newKey remap context m.1)).Nodup)
      (values : ∀ m ∈ members, Distinct (context ++ [newKey remap context m.1]) m.2) :
      Distinct context (.obj members)
  | arr {context : List String} {elements : List Json}
      (values : ∀ j ∈ elements, Distinct context j) : Distinct context (.arr elements)
  | leaf {context : List String} {j : Json} (harr : j.asArray = none) (hobj : j.asObject = none) :
      Distinct context j

/-- A later key of an object, renamed before it, neither takes the place of an earlier key nor
gets the new key of one; and inside an array there is nothing to rename. -/
inductive Clear : List String → Json → Prop
  | obj {context : List String} {members : List (String × Json)}
      (keys : members.Pairwise fun m n => newKey remap context n.1 ≠ m.1 ∧
        newKey remap context n.1 ≠ newKey remap context m.1)
      (values : ∀ m ∈ members, Clear (context ++ [newKey remap context m.1]) m.2) :
      Clear context (.obj members)
  | arr {context : List String} {elements : List Json}
      (values : ∀ j ∈ elements, Distinct remap context j)
      (same : renameElements remap context elements = elements) : Clear context (.arr elements)
  | leaf {context : List String} {j : Json} (harr : j.asArray = none) (hobj : j.asObject = none) :
      Clear context j

end

/-! ## The tables -/

def abbreviations : List (String × String) :=
  [("statusCode", "sc"), ("connReqId", "id"), ("senderDetail", "s"), ("name", "n"),
    ("agentKeyDlgProof", "dp"), ("agentDID", "d"), ("agentDelegatedKey", "k"), ("signature", "s"),
    ("DID", "d"), ("logoUrl", "l"), ("verKey", "v"), ("senderAgencyDetail", "sa"),
    ("endpoint", "e"), ("targetName", "t"), ("statusMsg", "sm")]

def unabbreviations : List ((String × Option String) × String) :=
  [(("sc", none), "statusCode"), (("id", none), "connReqId"), (("s", none), "senderDetail"),
    (("n", some "senderDetail"), "name"), (("dp", some "senderDetail"), "agentKeyDlgProof"),
    (("d", some "agentKeyDlgProof"), "agentDID"),
    (("k", some "agentKeyDlgProof"), "agentDelegatedKey"),
    (("s", some "agentKeyDlgProof"), "signature"), (("d", some "senderDetail"), "DID"),
    (("l", some "senderDetail"), "logoUrl"), (("v", some "senderDetail"), "verKey"),
    (("sa", none), "senderAgencyDetail"), (("d", some "senderAgencyDetail"), "DID"),
    (("v", some "senderAgencyDetail"), "verKey"), (("e", some "senderAgencyDetail"), "endpoint"),
    (("t", none), "targetName"), (("sm", none), "statusMsg")]

def abbrvEventDetail (depth : ℕ) (val : Json) : VcxResult Json :=
  mappedKeyRewrite abbreviations depth val

/-- The text of the error is replaced; its kind stays. -/
def extend (msg : String) (err : VcxError) : VcxError := ⟨err.kind, msg, []⟩

def unabbrvEventDetail (depth : ℕ) (val : Json) : VcxResult Json :=
  match mappedKeyRewrite unabbreviations depth val with
  | .err err => .err (extend "Cannot unabbreviate event detail" err)
  | r => r

/-! ## Invites -/

structure KeyDlgProof where
  agentDid : String
  agentDelegatedKey : String
  signature : String

structure SenderDetail where
  name : Option String
  agentKeyDlgProof : KeyDlgProof
  did : String
  logoUrl : Option String
  verkey : String
  publicDid : Option String

structure SenderAgencyDetail where
  did : String
  verkey : String
  endpoint : String

structure InviteDetail where
  statusCode : String
  connReqId : String
  senderDetail : SenderDetail
  senderAgencyDetail : SenderAgencyDetail
  targetName : String
  statusMsg : String
  threadId : Option String

def optional : Option String → Json
  | some s => .str s
  | none => .null

def KeyDlgProof.toJson (proof : KeyDlgProof) : Json :=
  .obj [("agentDID", .str proof.agentDid), ("agentDelegatedKey", .str proof.agentDelegatedKey),
    ("signature", .str proof.signature)]

/-- A public DID that is missing is left out; the other optional fields are written as `null`. -/
def SenderDetail.toJson (detail : SenderDetail) : Json :=
  .obj ([("DID", .str detail.did), ("agentKeyDlgProof", detail.agentKeyDlgProof.toJson),
      ("logoUrl", optional detail.logoUrl), ("name", optional detail.name)] ++
    (match detail.publicDid with
      | some did => [("publicDID", .str did)]
      | none => []) ++
    [("verKey", .str detail.verkey)])

def SenderAgencyDetail.toJson (detail : SenderAgencyDetail) : Json :=
  .obj [("DID", .str detail.did), ("endpoint", .str detail.endpoint),
    ("verKey", .str detail.verkey)]

def InviteDetail.toJson (invite : InviteDetail) : Json :=
  .obj [("connReqId", .str invite.connReqId),
    ("senderAgencyDetail", invite.senderAgencyDetail.toJson),
    ("senderDetail", invite.senderDetail.toJson), ("statusCode", .str invite.statusCode),
    ("statusMsg", .str invite.statusMsg), ("targetName", .str invite.targetName),
    ("threadId", optional invite.threadId)]

end IndySdk.Vcx.Invite
