import IndySdk.StateProofBinding
import IndySdk.VoteSafety

/-!
# Answers of one node

An answer that is accepted for its own proof names the keys of the proof itself; the request has no
say in them. The time that its freshness is judged by is read by a second reader, which sees the
signed time in one layout of the answer only.
-/

namespace IndySdk.Pool

open Outcome Option
open StateProof Constants
open Domain (uniqueMember)

/-- The proofs of a reply, and the type that they are for. -/
structure ProofsOf (crates : Crates) (world : World) (rawMsg type : String) (msgResult : Json)
    (sps : List ParsedSP) : Prop where
  result : ∃ result, getMsgResultWithoutStateProof crates rawMsg = .ok (msgResult, result)
  type : (msgResult.get "type").asStr = some type
  parsed : parseGenericReplyForProofChecking crates world msgResult rawMsg = some sps

/-- The keys of the proofs, as the texts they are handed on in. -/
def verifiedKeys (sps : List ParsedSP) : List String :=
  sps.flatMap (fun sp =>
    match sp.kvsToVerify with
    | .simple data => data.kvs.map Prod.fst
    | .subTrie _ => [])

/-- The proofs are for the keys that the reply itself names, or that the parser registered for its
type finds in it. -/
inductive OwnKeys (crates : Crates) (world : World) (rawMsg : String) (msgResult : Json) :
    String → List ParsedSP → Prop where
  | builtin {type : String} {text : Option String} {data : Json} {key : Bytes}
      {sps : List ParsedSP} (htype : type ∈ requestsForStateProofs)
      (hdata : parseData crates msgResult = some (text, data))
      (hkey : builtinKey crates world type msgResult data = some key)
      (hkeys : verifiedKeys sps = [crates.base64Encode key]) :
      OwnKeys crates world rawMsg msgResult type sps
  | plugged {type : String} {parser : String → Option (Option Bytes)} {cStr : Bytes}
      {text : String} {sps : List ParsedSP} (htype : type ∉ requestsForStateProofs)
      (hparser : world.spParser type = some parser) (hparsed : parser rawMsg = some (some cStr))
      (htext : Bytes.toText cStr = some text) (hsps : crates.parsedSpsFromStr text = some sps) :
      OwnKeys crates world rawMsg msgResult type sps

variable {crates : Crates} {world : World} {sm : RequestSM} {event : RequestEvent}
  {rawMsg type : String} {msgResult : Json} {sps : List ParsedSP}

theorem acceptedAlone_proofs (h : AcceptedAlone crates world sm event rawMsg) :
    ∃ type msgResult sps, ProofsOf crates world rawMsg type msgResult sps ∧
      ∀ sp ∈ sps, Accepted crates world sm.nodes sm.f sm.generator sp := by
  obtain ⟨state, op, nodeAlias, msgResult, result, signedTime, -, -, hresult, -, -, halone⟩ := h
  obtain ⟨checked, hchecked, halone⟩ := bind_eq_ok_iff.mp halone
  cases checked with
  | false => cases halone
  | true =>
    rw [checkStateProof] at hchecked
    cases hparse : parseGenericReplyForProofChecking crates world msgResult rawMsg with
    | none =>
      rw [hparse] at hchecked
      cases hchecked
    | some sps =>
      rw [hparse] at hchecked
      obtain ⟨type, htype, -⟩ := bind_eq_some_iff.mp hparse
      exact ⟨type, msgResult, sps, ⟨⟨result, hresult⟩, htype, hparse⟩,
        verifyParsedSp_ok hchecked⟩

theorem ProofsOf.ownKeys (h : ProofsOf crates world rawMsg type msgResult sps) :
    OwnKeys crates world rawMsg msgResult type sps := by
  have hparsed := h.parsed
  rw [parseGenericReplyForProofChecking, h.type, bind_eq_bind, bind_some] at hparsed
  by_cases htype : type ∈ requestsForStateProofs
  · rw [if_pos htype] at hparsed
    obtain ⟨parts⟩ := parseReplyForBuiltinSp_some hparsed
    have hkey : builtinKey crates world type msgResult parts.parsedData =
        some (parts.front ++ Bytes.ofText parts.suffix) := by
      rw [builtinKey, parts.hsuffix, bind_eq_bind, bind_some, parts.hfront]
      rfl
    refine OwnKeys.builtin htype parts.hdata hkey ?_
    exact (congrArg verifiedKeys parts.hsps).trans rfl
  · rw [if_neg htype] at hparsed
    obtain ⟨parser, hparser, hparsed⟩ := bind_eq_some_iff.mp hparsed
    split_ifs at hparsed
    obtain ⟨parsed, hp, hparsed⟩ := bind_eq_some_iff.mp hparsed
    obtain ⟨cStr, hcStr, hparsed⟩ := bind_eq_some_iff.mp hparsed
    obtain ⟨text, htext, hsps⟩ := bind_eq_some_iff.mp hparsed
    rw [hcStr] at hp
    exact OwnKeys.plugged htype hparser hp htext hsps

theorem run_single_request (hstart : sm.state = .start) (world : World)
    (request request' reqId : String) (inputs : List (World × RequestEvent)) :
    (requestMachine crates).run ((world, .customSingleRequest request reqId) :: inputs) (some sm) =
      (requestMachine crates).run ((world, .customSingleRequest request' reqId) :: inputs)
        (some sm) := by
  have hstep : ∀ text, ((requestMachine crates).step (world, .customSingleRequest text reqId)
      (some sm)).2 = some { sm with state := .single ⟨∅, ∅, ∅⟩ } := by
    intro text
    simp [requestMachine, RequestSM.handleEvent, RequestSM.stateStep, hstart, RequestSM.startStep]
  rw [Machine.run, Machine.run, hstep request, hstep request']

/-- An answer accepted for its proof alone was checked at keys of its own, and would have been
accepted whatever the request. -/
theorem alone_keys_own {start : RequestSM} (hstart : start.state = .start) (world₀ : World)
    (request reqId : String) (inputs : List (World × RequestEvent)) (input : World × RequestEvent)
    (hrun : (requestMachine crates).run ((world₀, .customSingleRequest request reqId) :: inputs)
      (some start) = some sm) (h : AcceptedAlone crates input.1 sm input.2 rawMsg) :
    (∃ type msgResult sps, ProofsOf crates input.1 rawMsg type msgResult sps ∧
      OwnKeys crates input.1 rawMsg msgResult type sps ∧
      ∀ sp ∈ sps, Accepted crates input.1 sm.nodes sm.f sm.generator sp) ∧
    ∀ request', (requestMachine crates).run
      ((world₀, .customSingleRequest request' reqId) :: inputs) (some start) = some sm := by
  constructor
  · obtain ⟨type, msgResult, sps, hproofs, haccepted⟩ := acceptedAlone_proofs h
    exact ⟨type, msgResult, sps, hproofs, hproofs.ownKeys, haccepted⟩
  · intro request'
    rw [← run_single_request hstart world₀ request request' reqId inputs]
    exact hrun

def fourPoolRequest : RequestSM := ⟨1, [7], fourPoolNodes, [], "pool", 20, 100, .start⟩

/-- A request for an identity, and the key of it in the trie. -/
def nymRequest (dest : String) : Json := .obj [("identifier", .str stewardDid),
  ("operation", .obj [("dest", .str dest), ("type", .str getNym)]), ("protocolVersion", .int 2),
  ("reqId", .int 1)]

def askedKey (crates : Crates) (request : Json) : Option Bytes :=
  keyPrefix crates getNym (request.get "operation")

def nymReplyEvent : World × RequestEvent :=
  (World.at 1536151300, .reply (.replyV0 ⟨1⟩) nymRawReply "Node1" "1")

def nymResultWithoutProof : Json := (nymResult nymDid).remove "state_proof"

theorem nymRawReply_read :
    nymCrates.fromStr nymRawReply = some (nymReply (nymResult nymDid)) := by
  simp only [nymCrates, if_true]

theorem nymRawReply_result : getMsgResultWithoutStateProof nymCrates nymRawReply =
    .ok (nymResult nymDid, nymResultWithoutProof) := by
  rw [getMsgResultWithoutStateProof, Crates.valueFromStr, nymRawReply_read]
  rfl

theorem nymRawReply_signedTime :
    getLastSignedTime nymCrates nymRawReply = .ok (some 1536151240) := by
  rw [getLastSignedTime, parseResponseMetadata, nymRawReply_read]
  decide +kernel

theorem nymRawReply_alone : AcceptedAlone nymCrates (World.at 1536151300)
    { fourPoolRequest with state := .single ⟨∅, ∅, ∅⟩ } nymReplyEvent.2 nymRawReply := by
  have hproofs : parseGenericReplyForProofChecking nymCrates (World.at 1536151300)
      (nymResult nymDid) nymRawReply = some [nymProven] := rfl
  refine ⟨⟨∅, ∅, ∅⟩, .reply, "Node1", nymResult nymDid, nymResultWithoutProof, some 1536151240,
    rfl, rfl, nymRawReply_result, nymRawReply_signedTime, Nat.le_of_eq rfl, ?_⟩
  rw [RequestSM.acceptedAlone, checkStateProof, hproofs]
  dsimp only
  rw [fourPoolRequest, nymProven_verified, Outcome.ok_bind, if_pos rfl]
  decide +kernel

theorem nymReply_alone_keys :
    (∃ type msgResult sps, ProofsOf nymCrates (World.at 1536151300) nymRawReply type msgResult sps ∧
      OwnKeys nymCrates (World.at 1536151300) nymRawReply msgResult type sps ∧
      ∀ sp ∈ sps, Accepted nymCrates (World.at 1536151300) fourPoolNodes 1 [] sp) ∧
    ∀ request', (requestMachine nymCrates).run
      [(World.at 1536151300, .customSingleRequest request' "1")] (some fourPoolRequest) =
        some { fourPoolRequest with state := .single ⟨∅, ∅, ∅⟩ } := by
  have hstart : fourPoolRequest.state = .start := rfl
  exact alone_keys_own hstart (World.at 1536151300) (nymRequest stewardDid).text "1" []
    nymReplyEvent rfl nymRawReply_alone

theorem nymReply_proofs : ProofsOf nymCrates (World.at 1536151300) nymRawReply getNym
    (nymResult nymDid) [nymProven] :=
  ⟨⟨nymResultWithoutProof, nymRawReply_result⟩, by rfl, by rfl⟩

/-- An identity is asked for, and the answer about another one is accepted for its proof alone. -/
theorem nymReply_other_key :
    ((requestMachine nymCrates).run
      [(World.at 1536151300, .customSingleRequest (nymRequest stewardDid).text "1")]
        (some fourPoolRequest) = some { fourPoolRequest with state := .single ⟨∅, ∅, ∅⟩ }) ∧
    AcceptedAlone nymCrates (World.at 1536151300)
      { fourPoolRequest with state := .single ⟨∅, ∅, ∅⟩ } nymReplyEvent.2 nymRawReply ∧
    ProofsOf nymCrates (World.at 1536151300) nymRawReply getNym (nymResult nymDid) [nymProven] ∧
    (verifiedKeys [nymProven]).map nymCrates.base64Decode = [some nymKey] ∧
    ∃ asked, askedKey nymCrates (nymRequest stewardDid) = some asked ∧ asked ≠ nymKey := by
  refine ⟨rfl, nymRawReply_alone, nymReply_proofs, by decide +kernel,
    Bytes.ofNat 32 0xd9bedd649e96ace94b42aebb00561811b5ce156a3922855198f7af4fb5f2f277, ?_, ?_⟩
  · decide +kernel
  · decide +kernel

/-- A text in the one layout that both readers find the same result in. -/
structure Plain (j result : Json) : Prop where
  reply : ∃ members, j = .obj members ∧ uniqueMember "op" members = some (.str "REPLY") ∧
    ∃ r, uniqueMember "result" members = some r ∧ result = r.toValue
  unversioned : (result.get "ver").asStr = none

/-- The time read from a text outside that layout: from fields that no signature covers. -/
inductive UnsignedTime (j : Json) : ℕ → Prop where
  | unread (h : Domain.Message.decode j = none) : UnsignedTime j 0
  | refused {response : Domain.Response} (h : Domain.Message.decode j = some (.reject response) ∨
      Domain.Message.decode j = some (.reqNACK response)) : UnsignedTime j 0
  | versioned {reply : Domain.Reply} {result : Json}
      (hreply : Domain.Message.decode j = some (.reply reply)) (hresult : reply.result = .ok result)
      (hver : (result.get "ver").asStr = some "1") :
      UnsignedTime j ((((((result.get "multiSignature").get "signedState").get
        "stateMetadata").get "timestamp").asU64).getD 0)
  | unsupported {reply : Domain.Reply} {result : Json} {ver : String}
      (hreply : Domain.Message.decode j = some (.reply reply)) (hresult : reply.result = .ok result)
      (hver : (result.get "ver").asStr = some ver) (hother : ver ≠ "1") : UnsignedTime j 0
  | elsewhere {reply : Domain.Reply} {result : Json}
      (hreply : Domain.Message.decode j = some (.reply reply)) (hresult : reply.result = .ok result)
      (hver : (result.get "ver").asStr = none) (hplain : ¬ Plain j result) :
      UnsignedTime j ((signedTimestamp result).getD 0)

/-- The time in the value that a proof is signed over. -/
def signedTime (sp : ParsedSP) : Option ℕ := ((sp.multiSignature.get "value").get "timestamp").asU64

/-- The time that the freshness of a reply is judged by is that of every value signed for it. -/
def JudgedBySigned (crates : Crates) (rawMsg : String) (sps : List ParsedSP) : Prop :=
  sps ≠ [] ∧ ∀ sp ∈ sps, ∃ time, getLastSignedTime crates rawMsg = .ok time ∧
    signedTime sp = some (time.getD 0)

/-- A reply in the common layout with the time of its proofs, or one whose unsigned time is that of
its proofs by chance. -/
def ShowsTime (j : Json) (sp : ParsedSP) : Prop :=
  (∃ result, Plain j result ∧ signedTime sp = some ((signedTimestamp result).getD 0)) ∨
    ((∀ result, ¬ Plain j result) ∧ ∃ t, UnsignedTime j t ∧ signedTime sp = some t)

variable {j result : Json} {time : Option ℕ}

theorem Plain.unique {result' : Json} (h : Plain j result) (h' : Plain j result') :
    result = result' := by
  obtain ⟨members, hj, -, r, hr, rfl⟩ := h.reply
  obtain ⟨members', hj', -, r', hr', rfl⟩ := h'.reply
  rw [hj] at hj'
  cases hj'
  rw [hr] at hr'
  cases hr'
  rfl

theorem UnsignedTime.unique {t t' : ℕ} (h : UnsignedTime j t) (h' : UnsignedTime j t') :
    t = t' := by
  cases h <;> cases h' <;> simp_all

theorem uniqueMember_filter {key other : String} (hne : other ≠ key)
    (members : List (String × Json)) :
    uniqueMember other (members.filter (fun m => m.1 ≠ key)) = uniqueMember other members := by
  have hfilter : (members.filter (fun m => m.1 ≠ key)).filter (fun m => m.1 = other) =
      members.filter (fun m => m.1 = other) := by
    rw [List.filter_filter]
    apply List.filter_congr
    intro m _
    by_cases hm : m.1 = other
    · simp [hm, hne]
    · simp [hm]
  rw [uniqueMember, uniqueMember, hfilter]

theorem Plain.decode (h : Plain j result) :
    Domain.Message.decode j = some (.reply (.replyV0 ⟨result⟩)) := by
  obtain ⟨members, rfl, hop, r, hr, rfl⟩ := h.reply
  have htag : Domain.splitTag "op" (.obj members) =
      some ("REPLY", .obj (members.filter (fun m => m.1 ≠ "op"))) := by
    rw [Domain.splitTag, hop]
    rfl
  have hresult : Domain.onlyField "result" (.obj (members.filter (fun m => m.1 ≠ "op"))) =
      some r := by
    rw [Domain.onlyField, uniqueMember_filter (by decide), hr]
  rw [Domain.Message.decode, htag, bind_eq_bind, bind_some]
  dsimp only
  rw [if_neg (by decide), if_pos rfl, Domain.Reply.decode, Domain.ReplyV0.decode, hresult]
  rfl

/-- What the time of a text is read from. -/
theorem time_of_layout (hread : crates.fromStr rawMsg = some j)
    (htime : getLastSignedTime crates rawMsg = .ok time) :
    (∃ result, Plain j result ∧ time = signedTimestamp result) ∨
      ((∀ result, ¬ Plain j result) ∧ UnsignedTime j (time.getD 0)) := by
  by_cases hplain : ∃ result, Plain j result
  · obtain ⟨result, hplain⟩ := hplain
    refine .inl ⟨result, hplain, ?_⟩
    rw [getLastSignedTime, parseResponseMetadata, hread, bind_some, hplain.decode,
      ofOption_some, ok_bind, handleResponseMessageType, ok_bind,
      Domain.Reply.result, ok_bind, hplain.unversioned] at htime
    exact (Outcome.ok.inj htime).symm
  · push Not at hplain
    refine .inr ⟨hplain, ?_⟩
    rw [getLastSignedTime, parseResponseMetadata, hread, bind_some] at htime
    cases hdecode : Domain.Message.decode j with
    | none =>
      rw [hdecode] at htime
      cases htime
      exact .unread hdecode
    | some message =>
      rw [hdecode, ofOption_some, ok_bind] at htime
      cases message with
      | reqNACK response =>
        cases htime
        exact .refused (.inr hdecode)
      | reject response =>
        cases htime
        exact .refused (.inl hdecode)
      | reply reply =>
        rw [handleResponseMessageType, ok_bind] at htime
        cases hresult : reply.result with
        | panic =>
          rw [hresult] at htime
          cases htime
        | err e =>
          cases reply with
          | replyV0 reply => cases hresult
          | replyV1 reply =>
            rw [Domain.Reply.result] at hresult
            cases hhead : reply.data.result.head? with
            | none =>
              rw [hhead] at hresult
              cases hresult
            | some first =>
              rw [hhead] at hresult
              cases hresult
        | ok result =>
          rw [hresult, ok_bind] at htime
          cases hver : (result.get "ver").asStr with
          | none =>
            rw [hver] at htime
            cases htime
            exact .elsewhere hdecode hresult hver (hplain result)
          | some ver =>
            rw [hver] at htime
            dsimp only at htime
            by_cases hone : ver = "1"
            · subst hone
              cases htime
              exact .versioned hdecode hresult hver
            · rw [if_neg hone] at htime
              cases htime
              exact .unsupported hdecode hresult hver hone

theorem judgedBySigned_of_time (hread : crates.fromStr rawMsg = some j)
    (htime : getLastSignedTime crates rawMsg = .ok time) :
    JudgedBySigned crates rawMsg sps ↔ sps ≠ [] ∧ ∀ sp ∈ sps, ShowsTime j sp := by
  refine and_congr_right (fun _ => forall₂_congr (fun sp _ => ?_))
  rcases time_of_layout hread htime with ⟨plain, hplain, rfl⟩ | ⟨hplain, hunsigned⟩
  · constructor
    · rintro ⟨time', htime', hsigned⟩
      rw [htime, Outcome.ok.injEq] at htime'
      subst htime'
      exact .inl ⟨plain, hplain, hsigned⟩
    · rintro (⟨plain', hplain', hsigned⟩ | ⟨hnone, -⟩)
      · rw [← hplain.unique hplain'] at hsigned
        exact ⟨_, htime, hsigned⟩
      · exact absurd hplain (hnone plain)
  · constructor
    · rintro ⟨time', htime', hsigned⟩
      rw [htime, Outcome.ok.injEq] at htime'
      subst htime'
      exact .inr ⟨hplain, _, hunsigned, hsigned⟩
    · rintro (⟨plain, hplain', -⟩ | ⟨-, t, hunsigned', hsigned⟩)
      · exact absurd hplain' (hplain plain)
      · rw [hunsigned'.unique hunsigned] at hsigned
        exact ⟨time, htime, hsigned⟩

/-- An answer accepted for its proof alone is judged by the time of its signed values exactly when
it shows that time to the second reader. -/
theorem judgedBySigned_iff (h : AcceptedAlone crates world sm event rawMsg) {j : Json}
    (hread : crates.fromStr rawMsg = some j) :
    ∃ type msgResult sps, ProofsOf crates world rawMsg type msgResult sps ∧
      (∀ sp ∈ sps, Accepted crates world sm.nodes sm.f sm.generator sp) ∧
      (JudgedBySigned crates rawMsg sps ↔ sps ≠ [] ∧ ∀ sp ∈ sps, ShowsTime j sp) := by
  obtain ⟨type, msgResult, sps, hproofs, haccepted⟩ := acceptedAlone_proofs h
  obtain ⟨-, -, -, -, -, time, -, -, -, htime, -, -⟩ := h
  exact ⟨type, msgResult, sps, hproofs, haccepted, judgedBySigned_of_time hread htime⟩

theorem nymReply_judged : ∃ type msgResult sps,
    ProofsOf nymCrates (World.at 1536151300) nymRawReply type msgResult sps ∧
      (∀ sp ∈ sps, Accepted nymCrates (World.at 1536151300) fourPoolNodes 1 [] sp) ∧
      (JudgedBySigned nymCrates nymRawReply sps ↔
        sps ≠ [] ∧ ∀ sp ∈ sps, ShowsTime (nymReply (nymResult nymDid)) sp) :=
  judgedBySigned_iff nymRawReply_alone nymRawReply_read

/-- The same result with a version, and with a later time where the second reader looks for it. -/
def refreshedResult : Json :=
  ((nymResult nymDid).put "ver" (.str "1")).put "multiSignature" (.obj [("signedState",
    .obj [("stateMetadata", .obj [("timestamp", .int 1546151290)])])])

def refreshedRawReply : String := (nymReply refreshedResult).text

def refreshedCrates : Crates :=
  { nymCrates with
    fromStr := fun s => if s = refreshedRawReply then some (nymReply refreshedResult) else none }

theorem refreshedRawReply_read :
    refreshedCrates.fromStr refreshedRawReply = some (nymReply refreshedResult) := by
  simp only [refreshedCrates, if_true]

theorem refreshedRawReply_signedTime :
    getLastSignedTime refreshedCrates refreshedRawReply = .ok (some 1546151290) := by
  rw [getLastSignedTime, parseResponseMetadata, refreshedRawReply_read]
  rfl

/-- A root signed long before is accepted as fresh. -/
theorem refreshedReply_not_judged :
    (∃ event, AcceptedAlone refreshedCrates (World.at 1546151300)
      { fourPoolRequest with state := .single ⟨∅, ∅, ∅⟩ } event refreshedRawReply) ∧
    ProofsOf refreshedCrates (World.at 1546151300) refreshedRawReply getNym refreshedResult
      [nymProven] ∧
    signedTime nymProven = some 1536151240 ∧
    ¬ JudgedBySigned refreshedCrates refreshedRawReply [nymProven] := by
  have hresult : getMsgResultWithoutStateProof refreshedCrates refreshedRawReply =
      .ok (refreshedResult, refreshedResult.remove "state_proof") := by
    rw [getMsgResultWithoutStateProof, Crates.valueFromStr, refreshedRawReply_read]
    rfl
  refine ⟨⟨.reply (.replyV0 ⟨1⟩) refreshedRawReply "Node1" "1", ⟨∅, ∅, ∅⟩, .reply, "Node1",
    refreshedResult, refreshedResult.remove "state_proof", some 1546151290, rfl, rfl, hresult,
    refreshedRawReply_signedTime, Nat.le_of_eq rfl, by decide +kernel⟩,
    ⟨⟨_, hresult⟩, rfl, rfl⟩, by decide +kernel, ?_⟩
  rintro ⟨-, hall⟩
  obtain ⟨time, htime, hsigned⟩ := hall nymProven (List.mem_singleton_self _)
  rw [refreshedRawReply_signedTime, Outcome.ok.injEq] at htime
  subst htime
  exact absurd hsigned (by decide +kernel)

end IndySdk.Pool
