import IndySdk.JsonReader
import IndySdk.ResponseMetadata

/-!
# Which layout the metadata of a response comes from

The result of a reply names its version. The version selects the places where the values of the
metadata stand, whichever of its own two layouts the reply has.
-/

open Outcome

namespace IndySdk.Domain

/-- The result that a message carries. -/
def Message.carried : Message → Option Json
  | .reply (.replyV0 r) => some r.result
  | .reply (.replyV1 r) => r.data.result.head?.map ReplyV0.result
  | _ => none

end IndySdk.Domain

namespace IndySdk.Pool

/-- The places in a result where the values of its metadata stand. -/
structure Layout where
  seqNo : List String
  txnTime : List String
  lastTxnTime : List String
  deriving DecidableEq

namespace Layout

def v0 : Layout where
  seqNo := ["seqNo"]
  txnTime := ["txnTime"]
  lastTxnTime := ["state_proof", "multi_signature", "value", "timestamp"]

def v1 : Layout where
  seqNo := ["txnMetadata", "seqNo"]
  txnTime := ["txnMetadata", "txnTime"]
  lastTxnTime := ["multiSignature", "signedState", "stateMetadata", "timestamp"]

/-- The layout that the version of a result selects. -/
def ofResult (result : Json) : Option Layout :=
  match (result.get "ver").asStr with
  | none => some v0
  | some ver => if ver = "1" then some v1 else none

def numberAt (place : List String) (result : Json) : Option ℕ :=
  (place.foldl (fun value key => value.get key) result).asU64

def read (layout : Layout) (result : Json) : Domain.ResponseMetadata where
  seqNo := numberAt layout.seqNo result
  txnTime := numberAt layout.txnTime result
  lastTxnTime := numberAt layout.lastTxnTime result
  lastSeqNo := none

theorem read_v0 (result : Json) : v0.read result = parseTransactionMetadataV0 result := rfl

theorem read_v1 (result : Json) : v1.read result = parseTransactionMetadataV1 result := rfl

end Layout

variable (crates : Crates) (response : String)

def readMessage : Option Domain.Message := (crates.fromStr response).bind Domain.Message.decode

/-- The response is a reply of the second layout without a result. -/
def IsEmptyReply : Prop := readMessage crates response = some (.reply (.replyV1 ⟨⟨[]⟩⟩))

theorem result_of_carried {reply : Domain.Reply} {result : Json}
    (h : (Domain.Message.reply reply).carried = some result) : reply.result = .ok result := by
  cases reply with
  | replyV0 reply => exact congrArg Outcome.ok (Option.some.inj h)
  | replyV1 reply =>
    obtain ⟨first, hfirst, rfl⟩ := Option.map_eq_some_iff.mp h
    rw [Domain.Reply.result, hfirst]
    rfl

theorem failed_or_empty {message : Domain.Message} (h : message.carried = none) :
    (∃ err, handleResponseMessageType message = .err err ∧ err.kind = .invalidTransaction) ∨
      message = .reply (.replyV1 ⟨⟨[]⟩⟩) := by
  cases message with
  | reqNACK failed => exact .inl ⟨_, rfl, rfl⟩
  | reject failed => exact .inl ⟨_, rfl, rfl⟩
  | reply reply =>
    cases reply with
    | replyV0 r => cases h
    | replyV1 r =>
      obtain ⟨⟨results⟩⟩ := r
      cases results with
      | nil => exact .inr rfl
      | cons first rest => cases h

variable {crates response}

theorem parseResponseMetadata_of_carried {message : Domain.Message} {result : Json}
    (hread : readMessage crates response = some message) (h : message.carried = some result) :
    (∃ layout, Layout.ofResult result = some layout ∧
      parseResponseMetadata crates response = .ok (layout.read result)) ∨
    Layout.ofResult result = none ∧ ∃ err,
      parseResponseMetadata crates response = .err err ∧ err.kind = .invalidTransaction := by
  cases message with
  | reqNACK failed => cases h
  | reject failed => cases h
  | reply reply =>
    rw [readMessage] at hread
    rw [parseResponseMetadata, hread, ofOption_some, ok_bind,
      handleResponseMessageType, ok_bind, result_of_carried h, ok_bind,
      Layout.ofResult]
    cases (result.get "ver").asStr with
    | none => exact .inl ⟨Layout.v0, rfl, rfl⟩
    | some ver =>
      dsimp only
      by_cases hver : ver = "1"
      · rw [if_pos hver, if_pos hver]
        exact .inl ⟨Layout.v1, rfl, rfl⟩
      · rw [if_neg hver, if_neg hver]
        exact .inr ⟨rfl, _, rfl, rfl⟩

/-- Unless a reply of the second layout comes without a result, a response that carries a result
whose version selects a layout gives the metadata of this layout, and any other response is an
invalid transaction. -/
theorem responseMetadata_total (h : ¬IsEmptyReply crates response) :
    (∃ result layout, (readMessage crates response).bind Domain.Message.carried = some result ∧
      Layout.ofResult result = some layout ∧
      parseResponseMetadata crates response = .ok (layout.read result) ∧
      getLastSignedTime crates response = .ok (layout.read result).lastTxnTime) ∨
    ((readMessage crates response).bind Domain.Message.carried).bind Layout.ofResult = none ∧
      (∃ err, parseResponseMetadata crates response = .err err ∧
        err.kind = .invalidTransaction) ∧
      getLastSignedTime crates response = .ok none := by
  rw [getLastSignedTime]
  cases hread : readMessage crates response with
  | none =>
    refine .inr ⟨rfl, ?_⟩
    rw [readMessage] at hread
    rw [parseResponseMetadata, hread]
    exact ⟨⟨_, rfl, rfl⟩, rfl⟩
  | some message =>
    rw [Option.bind_some]
    cases hcarried : message.carried with
    | some result =>
      rcases parseResponseMetadata_of_carried hread hcarried with
        ⟨layout, hlayout, hparse⟩ | ⟨hnone, err, hparse, hkind⟩
      · rw [hparse]
        exact .inl ⟨result, layout, rfl, hlayout, rfl, rfl⟩
      · rw [hparse]
        exact .inr ⟨hnone, ⟨err, rfl, hkind⟩, rfl⟩
    | none =>
      refine .inr ⟨rfl, ?_⟩
      rcases failed_or_empty hcarried with ⟨err, hfailed, hkind⟩ | hempty
      · rw [readMessage] at hread
        rw [parseResponseMetadata, hread, ofOption_some, ok_bind, hfailed]
        exact ⟨⟨err, rfl, hkind⟩, rfl⟩
      · exact absurd (hread.trans (congrArg some hempty)) h

def readingCrates : Crates := { Crates.none with fromStr := Json.read }

def nextReply : String :=
  "\x7b\"op\":\"REPLY\",\"data\":\x7b\"result\":[\x7b\"result\":\x7b\"ver\":\"1\"\x7d\x7d]\x7d\x7d"

/-- A reply of the second layout with one result. -/
theorem responseMetadata_total_nextReply :
    (∃ result layout,
      (readMessage readingCrates nextReply).bind Domain.Message.carried = some result ∧
      Layout.ofResult result = some layout ∧
      parseResponseMetadata readingCrates nextReply = .ok (layout.read result) ∧
      getLastSignedTime readingCrates nextReply = .ok (layout.read result).lastTxnTime) ∨
    ((readMessage readingCrates nextReply).bind Domain.Message.carried).bind Layout.ofResult =
        none ∧
      (∃ err, parseResponseMetadata readingCrates nextReply = .err err ∧
        err.kind = .invalidTransaction) ∧
      getLastSignedTime readingCrates nextReply = .ok none := by
  have hread : readingCrates.fromStr nextReply = some (.obj [("op", .str "REPLY"), ("data",
      .obj [("result", .arr [.obj [("result", .obj [("ver", .str "1")])]])])]) := by
    decide +kernel
  refine responseMetadata_total (fun h => ?_)
  rw [IsEmptyReply, readMessage, hread] at h
  cases h

/-- A reply of another version is an invalid transaction; a reply of the second layout without a
result ends the program. -/
theorem otherVersion_refused :
    parseResponseMetadata readingCrates
        "\x7b\"op\":\"REPLY\",\"result\":\x7b\"ver\":\"2\"\x7d\x7d" =
      .err (errMsg .invalidTransaction "Unsupported transaction response version: _" ["2"]) ∧
    parseResponseMetadata readingCrates
        "\x7b\"op\":\"REPLY\",\"data\":\x7b\"result\":[]\x7d\x7d" = .panic := by
  have hother : readingCrates.fromStr
      "\x7b\"op\":\"REPLY\",\"result\":\x7b\"ver\":\"2\"\x7d\x7d" =
      some (.obj [("op", .str "REPLY"), ("result", .obj [("ver", .str "2")])]) := by
    decide +kernel
  have hempty : readingCrates.fromStr
      "\x7b\"op\":\"REPLY\",\"data\":\x7b\"result\":[]\x7d\x7d" =
      some (.obj [("op", .str "REPLY"), ("data", .obj [("result", .arr [])])]) := by
    decide +kernel
  constructor
  · rw [parseResponseMetadata, hother]
    rfl
  · rw [parseResponseMetadata, hempty]
    rfl

end IndySdk.Pool
