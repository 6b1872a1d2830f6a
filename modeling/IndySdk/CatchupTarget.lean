import IndySdk.ConsensusReach
import Mathlib.Algebra.Order.BigOperators.Group.List

/-!
# Agreement on the target of a catch-up

Nodes vote for a root, a size and a proof, and the request looks at the most popular vote each time
one more is counted. A target takes `f + 1` votes, but the request starts over as soon as more than
`f` nodes said something else, which may be long before `f + 1` votes are out of reach.
-/

namespace IndySdk.Pool

open Outcome AssocMap RequestSM List
open Ledger (MerkleTree)

variable {crates : Crates} {world : World} {sm : RequestSM} {event : RequestEvent}

/-- A node counted as timed out stands under a vote of its own. -/
def timeoutVote : LedgerVote := ("timeout", 0, none)

def LedgerVote.isTimeout (vote : LedgerVote) : Prop := vote.1 = "timeout"

instance (vote : LedgerVote) : Decidable vote.isTimeout := inferInstanceAs (Decidable (_ = _))

/-- The vote that an event carries, and the node that casts it. -/
def RequestEvent.ledgerVote : RequestEvent → Option (LedgerVote × String)
  | .ledgerStatus ls (some nodeAlias) _ => some ((ls.merkleRoot, ls.txnSeqNo, none), nodeAlias)
  | .consistencyProof cp nodeAlias =>
    some ((cp.newMerkleRoot, cp.seqNoEnd, some cp.hashes), nodeAlias)
  | .timeout _ nodeAlias => some (timeoutVote, nodeAlias)
  | _ => none

/-! ### One look at the votes -/

namespace LedgerVotes

variable {votes : LedgerVotes} {vote : LedgerVote} {members set : Finset String}
  {nodeAlias : String} {f nodeCnt : ℕ} {merkleTree : MerkleTree} {poolName : String}

def repsCnt (votes : LedgerVotes) : ℕ := (votes.values.map Finset.card).sum

/-- The nodes that cast a vote. -/
def voters (votes : LedgerVotes) (vote : LedgerVote) : Finset String := (votes.lookup vote).getD ∅

/-- A vote is counted. -/
def count (votes : LedgerVotes) (vote : LedgerVote) (nodeAlias : String) : LedgerVotes :=
  votes.update vote (fun set => insert nodeAlias (set.getD ∅))

theorem voters_of_lookup (h : votes.lookup vote = some set) : votes.voters vote = set := by
  rw [voters, h]
  rfl

theorem voters_count (votes : LedgerVotes) (vote other : LedgerVote) (nodeAlias : String) :
    (votes.count vote nodeAlias).voters other =
      if other = vote then insert nodeAlias (votes.voters vote) else votes.voters other := by
  by_cases he : other = vote
  · subst he
    rw [if_pos rfl, voters, count, lookup_update_self]
    rfl
  · rw [if_neg he, voters, count, lookup_update_of_ne _ he]
    rfl

/-- What a look at the votes finds. -/
inductive Checked (crates : Crates) (world : World) (votes : LedgerVotes) (merkleTree : MerkleTree)
    (nodeCnt f : ℕ) (poolName : String) : IndyResult CatchupProgress → Prop where
  | agreed (vote : LedgerVote) (hvote : ¬ vote.isTimeout)
      (hcard : (votes.voters vote).card = f + 1) :
    Checked crates world votes merkleTree nodeCnt f poolName
      (catchUpOrReload crates world vote merkleTree poolName)
  | voted (vote : LedgerVote) (hvote : ¬ vote.isTimeout)
    (hcast : votes.lookup vote = some (votes.voters vote))
    (hfew : (votes.voters vote).card ≠ f + 1)
    (hbest : ∀ other, ¬ other.isTimeout → (votes.voters other).card ≤ (votes.voters vote).card) :
    Checked crates world votes merkleTree nodeCnt f poolName
      (ifConsensusReachable world votes nodeCnt (votes.voters vote).card f poolName)
  | timedOut (vote : LedgerVote) (set : Finset String) (hvote : vote.isTimeout)
    (hlookup : votes.lookup vote = some set)
    (hnone : ∀ other, ¬ other.isTimeout → votes.lookup other = none) :
    Checked crates world votes merkleTree nodeCnt f poolName
      (wordSub 64 world.overflowChecks nodeCnt f >>= fun needed =>
        if set.card = needed then
          tryToRestartCatchUp world poolName (errMsg .poolTimeout "Pool timeout")
        else ifConsensusReachable world votes nodeCnt set.card f poolName)
  | empty (hnone : ∀ other, ¬ other.isTimeout → votes.lookup other = none) :
    Checked crates world votes merkleTree nodeCnt f poolName (.ok .inProgress)

theorem mem_counts {entry : LedgerVote × ℕ} :
    entry ∈ votes.toPairs.map (fun entry => (entry.1, entry.2.card)) ↔
      ∃ set, votes.lookup entry.1 = some set ∧ set.card = entry.2 := by
  rw [mem_map]
  constructor
  · rintro ⟨⟨vote, set⟩, hmem, rfl⟩
    exact ⟨set, mem_toPairs.mp hmem, rfl⟩
  · rintro ⟨set, hlookup, hcard⟩
    exact ⟨(entry.1, set), mem_toPairs.mpr hlookup, by rw [hcard]⟩

theorem checked (crates : Crates) (world : World) (votes : LedgerVotes) (merkleTree : MerkleTree)
    (nodeCnt f : ℕ) (poolName : String) :
    Checked crates world votes merkleTree nodeCnt f poolName
      (checkNodesResponsesOnStatus crates world votes merkleTree nodeCnt f poolName) := by
  rw [checkNodesResponsesOnStatus]
  have hmem (p : LedgerVote → Prop) [DecidablePred p] (entry : LedgerVote × ℕ) :
      entry ∈ world.order.order ((votes.toPairs.map (fun entry => (entry.1, entry.2.card))).filter
        (fun entry => p entry.1)) ↔
      (∃ set, votes.lookup entry.1 = some set ∧ set.card = entry.2) ∧ p entry.1 := by
    rw [world.order.mem_order, mem_filter, mem_counts, decide_eq_true_iff]
  cases hmax : maxByKey Prod.snd (world.order.order
      ((votes.toPairs.map (fun entry => (entry.1, entry.2.card))).filter
        (fun entry => entry.1.1 ≠ "timeout"))) with
  | some best =>
    obtain ⟨vote, votesCnt⟩ := best
    obtain ⟨⟨set, hlookup, rfl⟩, hvote⟩ :=
      (hmem (fun vote => vote.1 ≠ "timeout") _).mp (maxByKey_mem hmax)
    have hset := voters_of_lookup hlookup
    simp only
    by_cases hcard : set.card = f + 1
    · rw [if_pos hcard]
      exact .agreed vote hvote (by rw [hset, hcard])
    · rw [if_neg hcard, ← hset]
      refine .voted vote hvote (by rw [hset, hlookup]) (by rw [hset]; exact hcard) ?_
      intro other hother
      rw [hset, voters]
      cases hothers : votes.lookup other with
      | none => exact Nat.zero_le _
      | some others =>
        have hin := (hmem (fun vote => vote.1 ≠ "timeout") (other, others.card)).mpr
            ⟨⟨others, hothers, rfl⟩, hother⟩
        obtain ⟨best, hbest, hge⟩ := maxByKey_ge Prod.snd hin
        rw [hmax] at hbest
        cases hbest
        exact hge _ hin
  | none =>
    have hnone : ∀ other : LedgerVote, ¬ other.isTimeout → votes.lookup other = none := by
      intro other hother
      cases hothers : votes.lookup other with
      | none => rfl
      | some others =>
        obtain ⟨best, hbest, -⟩ := maxByKey_ge Prod.snd
          ((hmem (fun vote => vote.1 ≠ "timeout") (other, others.card)).mpr
            ⟨⟨others, hothers, rfl⟩, hother⟩)
        rw [hmax] at hbest
        cases hbest
    simp only
    cases hlast : (world.order.order
        ((votes.toPairs.map (fun entry => (entry.1, entry.2.card))).filter
          (fun entry => entry.1.1 = "timeout"))).getLast? with
    | none => exact .empty hnone
    | some last =>
      obtain ⟨vote, votesCnt⟩ := last
      obtain ⟨⟨set, hlookup, rfl⟩, hvote⟩ :=
        (hmem (fun vote => vote.1 = "timeout") _).mp (mem_of_getLast? hlast)
      exact .timedOut vote set hvote hlookup hnone

/-! ### Votes for something else -/

/-- Only members vote. -/
def Within (votes : LedgerVotes) (members : Finset String) : Prop :=
  ∀ vote, votes.voters vote ⊆ members

/-- One target has more than `f` votes, or at most `f` others are counted beside its own; as long as
no node voted for a target, at most `f` are counted beside any of the timeouts. -/
def FewOthers (votes : LedgerVotes) (f : ℕ) : Prop :=
  (∃ entry ∈ votes.toPairs, ¬ entry.1.isTimeout ∧
    (f < entry.2.card ∨ votes.repsCnt ≤ entry.2.card + f)) ∨
  ∀ entry ∈ votes.toPairs, entry.1.isTimeout ∧ votes.repsCnt ≤ entry.2.card + f

/-- No target has more than `k` votes. -/
def AtMost (votes : LedgerVotes) (k : ℕ) : Prop :=
  ∀ vote : LedgerVote, ¬ vote.isTimeout → (votes.voters vote).card ≤ k

theorem atMost_count (h : votes.AtMost f) (vote : LedgerVote) (nodeAlias : String) :
    (votes.count vote nodeAlias).AtMost (f + 1) := by
  intro other hother
  have hle := h other hother
  rw [voters_count]
  by_cases he : other = vote
  · rw [if_pos he]
    subst he
    exact (Finset.card_insert_le _ _).trans (Nat.succ_le_succ hle)
  · rw [if_neg he]
    omega

theorem within_count (h : votes.Within members) (hmem : nodeAlias ∈ members) (vote : LedgerVote) :
    (votes.count vote nodeAlias).Within members := by
  intro other
  rw [voters_count]
  by_cases he : other = vote
  · rw [if_pos he]
    exact Finset.insert_subset hmem (h vote)
  · rw [if_neg he]
    exact h other

theorem repsCnt_eq (h : votes.lookup vote = some set) :
    votes.repsCnt = set.card + repsCnt (votes.erase vote) := by
  rw [repsCnt, ((values_perm_erase h).map Finset.card).sum_eq, map_cons,
    sum_cons]
  rfl

theorem card_le_repsCnt (h : votes.lookup vote = some set) : set.card ≤ votes.repsCnt := by
  rw [repsCnt_eq h]
  exact Nat.le_add_right _ _

/-- With few votes for something else, no more answers are counted than there are nodes. -/
theorem repsCnt_le (hwithin : votes.Within members) (hfew : votes.FewOthers f)
    (hmost : votes.AtMost f) (hf : 3 * f + 1 ≤ members.card) : votes.repsCnt ≤ members.card := by
  rcases hfew with ⟨entry, hentry, htarget, hle⟩ | hall
  · have hcard := hmost entry.1 htarget
    rw [voters_of_lookup (mem_toPairs.mp hentry)] at hcard
    omega
  · by_cases hnone : ∃ entry ∈ votes.toPairs, entry.2.card < votes.repsCnt
    · obtain ⟨entry, hentry, hlt⟩ := hnone
      have hlookup := mem_toPairs.mp hentry
      have hentries := (hall entry hentry).2
      have hrest : 0 < repsCnt (votes.erase entry.1) := by
        rw [repsCnt_eq hlookup] at hlt
        omega
      -- some other timeouts are counted, so that these are at most `f`
      have hother : ∃ group ∈ values (votes.erase entry.1), 0 < group.card := by
        by_contra hzero
        push Not at hzero
        apply hrest.ne'
        rw [repsCnt]
        apply sum_eq_zero
        intro card hcard
        obtain ⟨group, hgroup, rfl⟩ := mem_map.mp hcard
        exact Nat.le_zero.mp (hzero group hgroup)
      obtain ⟨group, hgroup, -⟩ := hother
      obtain ⟨vote, hne, hvote⟩ := Tally.exists_of_mem_values_erase hgroup
      have hgroups := (hall (vote, group) (mem_toPairs.mpr hvote)).2
      have hsum := repsCnt_eq hlookup
      have hle : group.card ≤ repsCnt (votes.erase entry.1) :=
        le_sum_of_mem (mem_map_of_mem hgroup)
      dsimp only at hgroups
      omega
    · push Not at hnone
      cases hpairs : votes.toPairs with
      | nil =>
        have hentries : votes.values = [] := by
          rw [toPairs, map_eq_nil_iff] at hpairs
          rw [values, hpairs]
          rfl
        rw [repsCnt, hentries]
        exact Nat.zero_le _
      | cons entry rest =>
        have hentry : entry ∈ votes.toPairs := by
          rw [hpairs]
          exact mem_cons_self
        have hlookup := mem_toPairs.mp hentry
        have hsubset := Finset.card_le_card (hwithin entry.1)
        rw [voters_of_lookup hlookup] at hsubset
        exact (hnone entry hentry).trans hsubset

theorem ifConsensusReachable_inProgress {votesCnt : ℕ} (hreps : votes.repsCnt ≤ nodeCnt)
    (hle : votesCnt ≤ votes.repsCnt) (hfew : votes.repsCnt ≤ votesCnt + f) (hf : f ≤ nodeCnt)
    (hn : nodeCnt < 2 ^ 64) :
    ifConsensusReachable world votes nodeCnt votesCnt f poolName = .ok .inProgress := by
  rw [repsCnt] at hreps hle hfew
  have hadd : (wordAdd 64 world.overflowChecks votesCnt
      (nodeCnt - (votes.values.map Finset.card).sum) : IndyResult ℕ) =
        .ok (votesCnt + (nodeCnt - (votes.values.map Finset.card).sum)) :=
    if_pos (by omega)
  rw [ifConsensusReachable, wordSub_of_le hreps, ok_bind, hadd, ok_bind,
    wordSub_of_le hf, ok_bind, if_neg (by omega)]
  rfl

end LedgerVotes

/-! ### What a vote leads to -/

variable {merkleTree : MerkleTree} {progress : CatchupProgress} {poolName : String}
  {votes : LedgerVotes} {nodeCnt f : ℕ}

theorem tryToCatchUp_ok {vote : LedgerVote}
    (h : tryToCatchUp crates vote merkleTree = .ok progress) :
    (∃ root, crates.fromBase58 vote.1 = some root ∧
      progress = .shouldBeStarted root vote.2.1 merkleTree) ∨
    vote.1 = crates.toBase58 merkleTree.rootHash ∧ vote.2.1 = merkleTree.count ∧
      progress = .notNeeded merkleTree := by
  obtain ⟨targetMtRoot, targetMtSize, hashes⟩ := vote
  simp only [tryToCatchUp] at h
  by_cases hsize : targetMtSize = merkleTree.count
  · rw [if_pos hsize] at h
    by_cases hroot : crates.toBase58 merkleTree.rootHash = targetMtRoot
    · rw [if_pos hroot] at h
      cases h
      exact .inr ⟨hroot.symm, hsize, rfl⟩
    · rw [if_neg hroot] at h
      cases h
  · rw [if_neg hsize] at h
    by_cases hgrown : merkleTree.count < targetMtSize
    · rw [if_pos hgrown] at h
      obtain ⟨root, hroot, h⟩ := bind_eq_ok_iff.mp h
      have hstarted : progress = .shouldBeStarted root targetMtSize merkleTree := by
        cases hashes with
        | none =>
          cases h
          rfl
        | some hashes =>
          obtain ⟨-, -, h⟩ := bind_eq_ok_iff.mp h
          cases h
          rfl
      exact .inl ⟨root, ofOption_eq_ok.mp hroot, hstarted⟩
    · rw [if_neg hgrown] at h
      cases h

theorem catchUpOrReload_ok {vote : LedgerVote}
    (h : catchUpOrReload crates world vote merkleTree poolName = .ok progress) :
    ∃ merkleTree', tryToCatchUp crates vote merkleTree' = .ok progress := by
  rw [catchUpOrReload] at h
  split at h
  · rename_i found htry
    cases h
    exact ⟨merkleTree, htry⟩
  · cases h
  · split at h
    · obtain ⟨merkleTree', -, h⟩ := bind_eq_ok_iff.mp h
      exact ⟨merkleTree', h⟩
    · cases h
    · cases h

theorem tryToRestartCatchUp_ok {e : IndyError}
    (h : tryToRestartCatchUp world poolName e = .ok progress) :
    ∃ merkleTree, progress = .restart merkleTree := by
  rw [tryToRestartCatchUp] at h
  split at h
  · obtain ⟨merkleTree, -, h⟩ := bind_eq_ok_iff.mp h
    cases h
    exact ⟨merkleTree, rfl⟩
  · cases h
  · cases h

theorem ifConsensusReachable_ok {votesCnt : ℕ}
    (h : ifConsensusReachable world votes nodeCnt votesCnt f poolName = .ok progress) :
    progress = .inProgress ∨ ∃ merkleTree, progress = .restart merkleTree := by
  obtain ⟨missing, -, h⟩ := bind_eq_ok_iff.mp h
  obtain ⟨positive, -, h⟩ := bind_eq_ok_iff.mp h
  obtain ⟨needed, -, h⟩ := bind_eq_ok_iff.mp h
  split_ifs at h
  · exact .inr (tryToRestartCatchUp_ok h)
  · cases h
    exact .inl rfl

/-- The event that a progress is reported by. -/
def CatchupProgress.poolEvent : CatchupProgress → Option PoolEvent
  | .shouldBeStarted targetMtRoot targetMtSize merkleTree =>
    some (.catchupTargetFound targetMtRoot targetMtSize merkleTree)
  | .notNeeded merkleTree => some (.synced merkleTree)
  | .restart merkleTree => some (.catchupRestart merkleTree)
  | .inProgress => none

/-- The events that a search for a target is started over or given up by. -/
def PoolEvent.GivesUp : PoolEvent → Prop
  | .catchupRestart _ => True
  | .catchupTargetNotFound _ => True
  | _ => False

/-- A vote is counted: what a look at the votes finds is reported, and the request goes on with the
vote or is finished. -/
structure VoteCounted (crates : Crates) (world : World) (sm : RequestSM)
    (state : CatchupConsensusState) (vote : LedgerVote) (nodeAlias : String) (next : RequestState)
    (output : Output) : Prop where
  reported :
    (∃ progress, checkNodesResponsesOnStatus crates world (state.replies.count vote nodeAlias)
      state.merkleTree sm.nodes.keys.length sm.f sm.poolName = .ok progress ∧
      output.poolEvent = progress.poolEvent) ∨
    ∃ e, checkNodesResponsesOnStatus crates world (state.replies.count vote nodeAlias)
      state.merkleTree sm.nodes.keys.length sm.f sm.poolName = .err e ∧
      output.poolEvent = some (.catchupTargetNotFound e)
  next : next = .finish ∨ (next = .catchupConsensus
    { state with replies := state.replies.count vote nodeAlias } ∧
      ∃ progress, checkNodesResponsesOnStatus crates world (state.replies.count vote nodeAlias)
        state.merkleTree sm.nodes.keys.length sm.f sm.poolName = .ok progress ∧
        (progress = .inProgress ∨ ∃ merkleTree, progress = .restart merkleTree))

theorem targetHandle_ok {state : CatchupConsensusState} {vote : LedgerVote}
    {nodeAlias reqId : String} {next : RequestState} {output : Output}
    (h : sm.catchupTargetHandleConsensusState crates world state vote.1 vote.2.1 vote.2.2 nodeAlias
      reqId = .ok (next, output)) :
    VoteCounted crates world sm state vote nodeAlias next output := by
  obtain ⟨⟨finished, result, state'⟩, hprocess, h⟩ := bind_eq_ok_iff.mp h
  rw [processCatchupTarget] at hprocess
  simp only at hprocess
  have hcounted : state.replies.update (vote.1, vote.2.1, vote.2.2)
      (fun set => insert nodeAlias (set.getD ∅)) = state.replies.count vote nodeAlias := rfl
  rw [hcounted] at hprocess
  split at hprocess
  · rename_i hcheck
    cases hprocess
    cases h
    exact ⟨.inl ⟨_, hcheck, rfl⟩, .inr ⟨rfl, _, hcheck, .inl rfl⟩⟩
  · rename_i merkleTree hcheck
    cases hprocess
    cases h
    exact ⟨.inl ⟨_, hcheck, rfl⟩, .inl rfl⟩
  · rename_i merkleTree hcheck
    cases hprocess
    cases h
    exact ⟨.inl ⟨_, hcheck, rfl⟩, .inr ⟨rfl, _, hcheck, .inr ⟨_, rfl⟩⟩⟩
  · rename_i targetMtRoot targetMtSize merkleTree hcheck
    cases hprocess
    cases h
    exact ⟨.inl ⟨_, hcheck, rfl⟩, .inl rfl⟩
  · rename_i e hcheck
    cases hprocess
    cases h
    exact ⟨.inr ⟨e, hcheck, rfl⟩, .inl rfl⟩
  · cases hprocess

/-! ### Ballots -/

/-- The votes cast in a run, each with the node that cast it. -/
abbrev Ballots := List (LedgerVote × String)

namespace Ballots

variable {ballots : Ballots} {vote : LedgerVote} {nodes : Nodes} {f : ℕ}

def voters (ballots : Ballots) (vote : LedgerVote) : Finset String :=
  ((ballots.filter (fun ballot => ballot.1 = vote)).map Prod.snd).toFinset

/-- The nodes that cast a vote or timed out. -/
def heard (ballots : Ballots) : Finset String := (ballots.map Prod.snd).toFinset

/-- A target has the votes of more than `f` nodes. -/
def Agreed (ballots : Ballots) (f : ℕ) (vote : LedgerVote) : Prop :=
  ¬ vote.isTimeout ∧ f + 1 ≤ (ballots.voters vote).card

/-- No target can get the votes of more than `f` nodes any more. -/
def OutOfReach (ballots : Ballots) (nodes : Nodes) (f : ℕ) : Prop :=
  ∀ vote : LedgerVote, ¬ vote.isTimeout →
    (ballots.voters vote ∪ (nodes.keySet \ ballots.heard)).card ≤ f

theorem mem_voters {nodeAlias : String} :
    nodeAlias ∈ ballots.voters vote ↔ (vote, nodeAlias) ∈ ballots := by
  simp [voters]

theorem mem_heard {nodeAlias : String} :
    nodeAlias ∈ ballots.heard ↔ ∃ vote, nodeAlias ∈ ballots.voters vote := by
  simp only [heard, mem_toFinset, mem_map, mem_voters]
  constructor
  · rintro ⟨⟨vote, other⟩, hmem, rfl⟩
    exact ⟨vote, hmem⟩
  · rintro ⟨vote, hmem⟩
    exact ⟨(vote, nodeAlias), hmem, rfl⟩

theorem voters_cons (ballots : Ballots) (vote other : LedgerVote) (nodeAlias : String) :
    voters ((vote, nodeAlias) :: ballots) other =
      if other = vote then insert nodeAlias (ballots.voters vote) else ballots.voters other := by
  ext node
  by_cases he : other = vote
  · subst he
    rw [if_pos rfl, Finset.mem_insert, mem_voters, mem_voters, mem_cons]
    simp
  · rw [if_neg he, mem_voters, mem_voters, mem_cons]
    simp [he]

/-- The ballots that a request has counted. -/
def CountedIn (ballots : Ballots) (votes : LedgerVotes) : Prop :=
  ∀ vote, votes.voters vote = ballots.voters vote

theorem countedIn_count {votes : LedgerVotes} (h : ballots.CountedIn votes) (vote : LedgerVote)
    (nodeAlias : String) :
    CountedIn ((vote, nodeAlias) :: ballots) (votes.count vote nodeAlias) := by
  intro other
  rw [LedgerVotes.voters_count, voters_cons, h vote, h other]

theorem outOfReach_of_timeouts {votes : LedgerVotes} {set : Finset String}
    (hcounted : ballots.CountedIn votes) (hwithin : votes.Within nodes.keySet)
    (hlookup : votes.lookup vote = some set)
    (hnone : ∀ other : LedgerVote, ¬ other.isTimeout → votes.lookup other = none)
    (hcard : set.card = nodes.keySet.card - f) : ballots.OutOfReach nodes f := by
  intro target htarget
  have hempty : ballots.voters target = ∅ := by
    rw [← hcounted target, LedgerVotes.voters, hnone target htarget]
    rfl
  have hset : set ⊆ ballots.heard := by
    intro node hnode
    refine mem_heard.mpr ⟨vote, ?_⟩
    rw [← hcounted vote, LedgerVotes.voters_of_lookup hlookup]
    exact hnode
  have hmembers : set ⊆ nodes.keySet := by
    rw [← LedgerVotes.voters_of_lookup hlookup]
    exact hwithin vote
  have hle := Finset.card_le_card (Finset.sdiff_subset_sdiff (le_refl nodes.keySet) hset)
  have hsum := Finset.card_sdiff_add_card_eq_card hmembers
  rw [hempty, Finset.empty_union]
  omega

end Ballots

def ballotRecorder : Machine Ballots (World × RequestEvent) Unit where
  step input ballots := ((), input.2.ledgerVote.toList ++ ballots)

/-- The search for a target that waits for votes. -/
def waitingCatchup : Option RequestSM → Option (RequestSM × CatchupConsensusState)
  | some sm =>
    match sm.state with
    | .catchupConsensus state => some (sm, state)
    | _ => none
  | none => none

/-- A step finds a target, or that there is nothing to catch up on, only by agreement. -/
def TargetAgreed (crates : Crates) (s : Option RequestSM) (ballots : Ballots)
    (input : World × RequestEvent) : Prop :=
  ∀ request ∈ waitingCatchup s, ∀ output ∈ ((requestMachine crates).step input s).1,
    (∀ root size merkleTree, output.poolEvent = some (.catchupTargetFound root size merkleTree) →
      ∃ vote, Ballots.Agreed (input.2.ledgerVote.toList ++ ballots) request.1.f vote ∧
        crates.fromBase58 vote.1 = some root ∧ vote.2.1 = size) ∧
    ∀ merkleTree, output.poolEvent = some (.synced merkleTree) →
      ∃ vote, Ballots.Agreed (input.2.ledgerVote.toList ++ ballots) request.1.f vote ∧
        vote.1 = crates.toBase58 merkleTree.rootHash ∧ vote.2.1 = merkleTree.count

/-- A step starts over or gives up only when no target is in reach, or when the target agreed on
cannot be followed. -/
def GivesUpInTime (crates : Crates) (s : Option RequestSM) (ballots : Ballots)
    (input : World × RequestEvent) : Prop :=
  ∀ request ∈ waitingCatchup s, ∀ output ∈ ((requestMachine crates).step input s).1,
    (∃ event ∈ output.poolEvent, event.GivesUp) →
      Ballots.OutOfReach (input.2.ledgerVote.toList ++ ballots) request.1.nodes request.1.f ∨
      ∃ ballot ∈ input.2.ledgerVote.toList ++ ballots,
        Ballots.Agreed (input.2.ledgerVote.toList ++ ballots) request.1.f ballot.1 ∧
        ∃ e, catchUpOrReload crates input.1 ballot.1 request.2.merkleTree request.1.poolName =
          .err e

/-- As long as no target is agreed on, the number of missing answers does not underflow. -/
def MissingCounted (s : Option RequestSM) (input : World × RequestEvent) : Prop :=
  ∀ request ∈ waitingCatchup s, ∀ ballot ∈ input.2.ledgerVote,
    (request.2.replies.count ballot.1 ballot.2).AtMost request.1.f →
      (request.2.replies.count ballot.1 ballot.2).repsCnt ≤ request.1.nodes.keys.length

/-- A vote is one of a node of the pool, and leaves few votes for something else. -/
def FewDissent (s : Option RequestSM) (input : World × RequestEvent) : Prop :=
  ∀ request ∈ waitingCatchup s, ∀ ballot ∈ input.2.ledgerVote,
    ballot.2 ∈ request.1.nodes.keySet ∧
      (request.2.replies.count ballot.1 ballot.2).FewOthers request.1.f

/-! ### Steps -/

variable {state : CatchupConsensusState} {next : RequestState} {output : Output}
  {ballots : Ballots} {vote : LedgerVote} {nodeAlias : String}

theorem catchupConsensusStep_cases
    (h : sm.catchupConsensusStep crates world state event = .ok (next, output)) :
    (∃ vote nodeAlias, event.ledgerVote = some (vote, nodeAlias) ∧
      VoteCounted crates world sm state vote nodeAlias next output) ∨
    (event.ledgerVote = none ∧ output.poolEvent = none ∧
      (next = .finish ∨ next = .catchupConsensus state)) := by
  cases event with
  | ledgerStatus ls sender merkle =>
    cases sender with
    | none =>
      cases h
      exact .inr ⟨rfl, rfl, .inr rfl⟩
    | some sender =>
      exact .inl ⟨(ls.merkleRoot, ls.txnSeqNo, none), sender, rfl, targetHandle_ok h⟩
  | consistencyProof cp sender =>
    exact .inl ⟨(cp.newMerkleRoot, cp.seqNoEnd, some cp.hashes), sender, rfl, targetHandle_ok h⟩
  | timeout reqId sender => exact .inl ⟨timeoutVote, sender, rfl, targetHandle_ok h⟩
  | terminate =>
    cases h
    exact .inr ⟨rfl, rfl, .inl rfl⟩
  | _ =>
    cases h
    exact .inr ⟨rfl, rfl, .inr rfl⟩

theorem checked_agreed
    (hcheck : checkNodesResponsesOnStatus crates world votes merkleTree nodeCnt f poolName =
      .ok progress) (hprogress : progress ≠ .inProgress)
    (hrestart : ∀ merkleTree, progress ≠ .restart merkleTree) :
    ∃ vote merkleTree', ¬ vote.isTimeout ∧ (votes.voters vote).card = f + 1 ∧
      tryToCatchUp crates vote merkleTree' = .ok progress := by
  have hnot {votesCnt : ℕ} (h : ifConsensusReachable world votes nodeCnt votesCnt f poolName =
      .ok progress) : False := by
    rcases ifConsensusReachable_ok h with rfl | ⟨merkleTree, rfl⟩
    · exact hprogress rfl
    · exact hrestart merkleTree rfl
  have hchecked := LedgerVotes.checked crates world votes merkleTree nodeCnt f poolName
  rw [hcheck] at hchecked
  generalize hresult : (Outcome.ok progress : IndyResult CatchupProgress) = result at hchecked
  cases hchecked with
  | agreed vote hvote hcard =>
    obtain ⟨merkleTree', htry⟩ := catchUpOrReload_ok hresult.symm
    exact ⟨vote, merkleTree', hvote, hcard, htry.trans hresult⟩
  | voted => exact (hnot hresult.symm).elim
  | timedOut vote set hvote hlookup hnone =>
    obtain ⟨needed, -, h⟩ := bind_eq_ok_iff.mp hresult.symm
    split_ifs at h
    · obtain ⟨merkleTree, rfl⟩ := tryToRestartCatchUp_ok h
      exact (hrestart merkleTree rfl).elim
    · exact (hnot h).elim
  | empty =>
    cases hresult
    exact (hprogress rfl).elim

theorem poolEvent_eq_found {root : Bytes} {size : ℕ}
    (h : progress.poolEvent = some (.catchupTargetFound root size merkleTree)) :
    progress = .shouldBeStarted root size merkleTree := by
  cases progress with
  | shouldBeStarted root size merkleTree =>
    cases h
    rfl
  | _ => cases h

theorem poolEvent_eq_synced (h : progress.poolEvent = some (.synced merkleTree)) :
    progress = .notNeeded merkleTree := by
  cases progress with
  | notNeeded merkleTree =>
    cases h
    rfl
  | _ => cases h

/-- A target reported when a vote is counted was agreed on. -/
theorem counted_agreed (hcounted : ballots.CountedIn state.replies)
    (h : VoteCounted crates world sm state vote nodeAlias next output) :
    (∀ root size merkleTree, output.poolEvent = some (.catchupTargetFound root size merkleTree) →
      ∃ agreed, Ballots.Agreed ((vote, nodeAlias) :: ballots) sm.f agreed ∧
        crates.fromBase58 agreed.1 = some root ∧ agreed.2.1 = size) ∧
    ∀ merkleTree, output.poolEvent = some (.synced merkleTree) →
      ∃ agreed, Ballots.Agreed ((vote, nodeAlias) :: ballots) sm.f agreed ∧
        agreed.1 = crates.toBase58 merkleTree.rootHash ∧ agreed.2.1 = merkleTree.count := by
  have hvoters := Ballots.countedIn_count hcounted vote nodeAlias
  rcases h.reported with ⟨progress, hcheck, hevent⟩ | ⟨e, -, hevent⟩
  · rw [hevent]
    refine ⟨?_, ?_⟩
    · intro root size merkleTree hfound
      have hprogress := poolEvent_eq_found hfound
      obtain ⟨agreed, merkleTree', hagreed, hcard, htry⟩ := checked_agreed hcheck
        (by rw [hprogress]; simp) (by rw [hprogress]; simp)
      refine ⟨agreed, ⟨hagreed, by rw [← hvoters agreed, hcard]⟩, ?_⟩
      rcases tryToCatchUp_ok htry with ⟨root', hroot, hstarted⟩ | ⟨-, -, hnotNeeded⟩
      · rw [hprogress] at hstarted
        cases hstarted
        exact ⟨hroot, rfl⟩
      · rw [hprogress] at hnotNeeded
        cases hnotNeeded
    · intro merkleTree hsynced
      have hprogress := poolEvent_eq_synced hsynced
      obtain ⟨agreed, merkleTree', hagreed, hcard, htry⟩ := checked_agreed hcheck
        (by rw [hprogress]; simp) (by rw [hprogress]; simp)
      refine ⟨agreed, ⟨hagreed, by rw [← hvoters agreed, hcard]⟩, ?_⟩
      rcases tryToCatchUp_ok htry with ⟨root', hroot, hstarted⟩ | ⟨hroot, hsize, hnotNeeded⟩
      · rw [hprogress] at hstarted
        cases hstarted
      · rw [hprogress] at hnotNeeded
        cases hnotNeeded
        exact ⟨hroot, hsize⟩
  · rw [hevent]
    refine ⟨?_, ?_⟩
    · rintro root size merkleTree ⟨⟩
    · rintro merkleTree ⟨⟩

/-- With few votes for something else, a look at the votes gives up only when all targets are out
of reach or the agreed one cannot be followed. -/
theorem checked_givesUp {nodes : Nodes} (hf : 3 * f + 1 ≤ nodes.keys.length)
    (hn : nodes.keys.length < 2 ^ 64) (hcounted : ballots.CountedIn votes)
    (hwithin : votes.Within nodes.keySet) (hfew : votes.FewOthers f) (hmost : votes.AtMost (f + 1))
    (hcheck : (∃ merkleTree', checkNodesResponsesOnStatus crates world votes merkleTree
        nodes.keys.length f poolName = .ok (.restart merkleTree')) ∨
      ∃ e, checkNodesResponsesOnStatus crates world votes merkleTree nodes.keys.length f poolName =
        .err e) :
    ballots.OutOfReach nodes f ∨ ∃ vote, ballots.Agreed f vote ∧
      ∃ e, catchUpOrReload crates world vote merkleTree poolName = .err e := by
  have hcard : nodes.keySet.card = nodes.keys.length := ConsensusState.card_keySet nodes
  have hreps (h : votes.AtMost f) : votes.repsCnt ≤ nodes.keys.length := by
    rw [← hcard] at hf ⊢
    exact LedgerVotes.repsCnt_le hwithin hfew h hf
  have hchecked := LedgerVotes.checked crates world votes merkleTree nodes.keys.length f poolName
  generalize checkNodesResponsesOnStatus crates world votes merkleTree nodes.keys.length f
    poolName = result at hcheck hchecked
  have hgoes (h : result = .ok .inProgress) : False := by
    rcases hcheck with ⟨merkleTree', hcheck⟩ | ⟨e, hcheck⟩
    · rw [h] at hcheck
      cases hcheck
    · rw [h] at hcheck
      cases hcheck
  cases hchecked with
  | agreed vote hvote hcard =>
    refine .inr ⟨vote, ⟨hvote, by rw [← hcounted vote, hcard]⟩, ?_⟩
    rcases hcheck with ⟨merkleTree', hcheck⟩ | ⟨e, hcheck⟩
    · obtain ⟨merkleTree'', htry⟩ := catchUpOrReload_ok hcheck
      rcases tryToCatchUp_ok htry with ⟨root, -, hstarted⟩ | ⟨-, -, hnotNeeded⟩
      · cases hstarted
      · cases hnotNeeded
    · exact ⟨e, hcheck⟩
  | voted vote hvote hcast hnot hbest =>
    have hbound := hmost vote hvote
    have hbelow : votes.AtMost f := by
      intro other hother
      have hle := hbest other hother
      omega
    refine (hgoes (LedgerVotes.ifConsensusReachable_inProgress (hreps hbelow)
      (LedgerVotes.card_le_repsCnt hcast) ?_ (by omega) hn)).elim
    rcases hfew with ⟨entry, hentry, htarget, hle⟩ | hall
    · have hle' := hbest entry.1 htarget
      rw [LedgerVotes.voters_of_lookup (mem_toPairs.mp hentry)] at hle'
      omega
    · exact absurd (hall _ (mem_toPairs.mpr hcast)).1 hvote
  | timedOut vote set hvote hlookup hnone =>
    rw [wordSub_of_le (by omega), ok_bind] at hcheck hgoes
    by_cases hall : set.card = nodes.keys.length - f
    · left
      apply Ballots.outOfReach_of_timeouts hcounted hwithin hlookup hnone
      rw [hcard, hall]
    · rw [if_neg hall] at hgoes
      have hbelow : votes.AtMost f := by
        intro other hother
        rw [LedgerVotes.voters, hnone other hother]
        exact Nat.zero_le f
      refine (hgoes (LedgerVotes.ifConsensusReachable_inProgress (hreps hbelow)
        (LedgerVotes.card_le_repsCnt hlookup) ?_ (by omega) hn)).elim
      rcases hfew with ⟨entry, hentry, htarget, -⟩ | htimeouts
      · have hsome := mem_toPairs.mp hentry
        rw [hnone entry.1 htarget] at hsome
        cases hsome
      · exact (htimeouts (vote, set) (mem_toPairs.mpr hlookup)).2
  | empty => exact (hgoes rfl).elim

theorem checked_atMost (hmost : votes.AtMost (f + 1))
    (hcheck : checkNodesResponsesOnStatus crates world votes merkleTree nodeCnt f poolName =
      .ok progress)
    (hgoes : progress = .inProgress ∨ ∃ merkleTree, progress = .restart merkleTree) :
    votes.AtMost f := by
  have hchecked := LedgerVotes.checked crates world votes merkleTree nodeCnt f poolName
  rw [hcheck] at hchecked
  generalize hresult : (Outcome.ok progress : IndyResult CatchupProgress) = result at hchecked
  intro other hother
  have hnone (h : votes.lookup other = none) : (votes.voters other).card ≤ f := by
    rw [LedgerVotes.voters, h]
    exact Nat.zero_le f
  cases hchecked with
  | agreed vote hvote hcard =>
    obtain ⟨merkleTree', htry⟩ := catchUpOrReload_ok hresult.symm
    rcases tryToCatchUp_ok htry with ⟨root, -, rfl⟩ | ⟨-, -, rfl⟩
    · rcases hgoes with hgoes | ⟨_, hgoes⟩
      · cases hgoes
      · cases hgoes
    · rcases hgoes with hgoes | ⟨_, hgoes⟩
      · cases hgoes
      · cases hgoes
  | voted vote hvote hcast hnot hbest =>
    have hle := hbest other hother
    have hbound := hmost vote hvote
    omega
  | timedOut vote set hvote hlookup hall => exact hnone (hall other hother)
  | empty hall => exact hnone (hall other hother)

/-! ### Runs -/

/-- A search for a target that has counted the ballots of the run, or has ended. -/
def Searching (s : Option RequestSM) (ballots : Ballots) : Prop :=
  ∀ sm ∈ s, sm.state = .finish ∨
    ∃ state, sm.state = .catchupConsensus state ∧ ballots.CountedIn state.replies

/-- Only nodes of the pool are counted, and no target is agreed on yet. -/
def Undecided (n f : ℕ) (s : Option RequestSM) : Prop :=
  ∀ request ∈ waitingCatchup s, request.1.nodes.keys.length = n ∧ request.1.f = f ∧
    request.2.replies.Within request.1.nodes.keySet ∧ request.2.replies.AtMost request.1.f

theorem waitingCatchup_eq_some {s : Option RequestSM} {request : RequestSM × CatchupConsensusState}
    (h : request ∈ waitingCatchup s) :
    s = some request.1 ∧ request.1.state = .catchupConsensus request.2 := by
  cases s with
  | none => cases h
  | some sm =>
    cases hstate : sm.state with
    | catchupConsensus state =>
      simp only [waitingCatchup, hstate] at h
      cases h
      exact ⟨rfl, hstate⟩
    | _ =>
      simp only [waitingCatchup, hstate] at h
      cases h

theorem step_cases {request : RequestSM × CatchupConsensusState} {s : Option RequestSM}
    {input : World × RequestEvent} (hrequest : request ∈ waitingCatchup s)
    (houtput : ((requestMachine crates).step input s).1 = some output) :
    ∃ next, ((requestMachine crates).step input s).2 = some { request.1 with state := next } ∧
      ((∃ vote nodeAlias, input.2.ledgerVote = some (vote, nodeAlias) ∧
        VoteCounted crates input.1 request.1 request.2 vote nodeAlias next output) ∨
      (input.2.ledgerVote = none ∧ output.poolEvent = none ∧
        (next = .finish ∨ next = .catchupConsensus request.2))) := by
  obtain ⟨hs, hstate⟩ := waitingCatchup_eq_some hrequest
  obtain ⟨sm, next, hsm, hstep, hnext⟩ := requestMachine_step_some houtput
  rw [hs] at hsm
  cases hsm
  rw [stateStep, hstate] at hstep
  exact ⟨next, hnext, catchupConsensusStep_cases hstep⟩

theorem searching_step (s : Option RequestSM) (ballots : Ballots) (input : World × RequestEvent)
    (h : Searching s ballots) :
    TargetAgreed crates s ballots input ∧
      Searching ((requestMachine crates).step input s).2
        ((ballotRecorder).step input ballots).2 := by
  refine ⟨?_, ?_⟩
  · intro request hrequest output houtput
    obtain ⟨hs, hstate⟩ := waitingCatchup_eq_some hrequest
    have hcounted : ballots.CountedIn request.2.replies := by
      rcases h request.1 hs with hfinish | ⟨state, hstate', hcounted⟩
      · rw [hstate] at hfinish
        cases hfinish
      · rw [hstate] at hstate'
        cases hstate'
        exact hcounted
    obtain ⟨next, -, ⟨vote, nodeAlias, hvote, hvoted⟩ | ⟨-, hquiet, -⟩⟩ :=
      step_cases hrequest houtput
    · rw [hvote]
      exact counted_agreed hcounted hvoted
    · rw [hquiet]
      refine ⟨?_, ?_⟩
      · rintro root size merkleTree ⟨⟩
      · rintro merkleTree ⟨⟩
  · rcases @requestMachine_step_cases crates s input with ⟨output, houtput⟩ | hnone
    · obtain ⟨sm, next, rfl, hstep, hnext⟩ := requestMachine_step_some houtput
      rw [hnext]
      rintro sm' ⟨⟩
      rcases h sm rfl with hfinish | ⟨state, hstate, hcounted⟩
      · rw [stateStep, hfinish] at hstep
        cases hstep
        exact .inl rfl
      · rw [stateStep, hstate] at hstep
        rcases catchupConsensusStep_cases hstep with ⟨vote, nodeAlias, hvote, hvoted⟩ |
          ⟨hvote, -, hkept⟩
        · refine hvoted.next.imp_right (fun hgoes => ⟨_, hgoes.1, ?_⟩)
          change Ballots.CountedIn (input.2.ledgerVote.toList ++ ballots) _
          rw [hvote]
          exact Ballots.countedIn_count hcounted vote nodeAlias
        · refine hkept.imp_right (fun hgoes => ⟨state, hgoes, ?_⟩)
          change Ballots.CountedIn (input.2.ledgerVote.toList ++ ballots) _
          rw [hvote]
          exact hcounted
    · rw [hnone]
      rintro sm' ⟨⟩

theorem givesUp_of_poolEvent (h : ∃ event ∈ progress.poolEvent, event.GivesUp) :
    ∃ merkleTree, progress = .restart merkleTree := by
  obtain ⟨event, hevent, hgives⟩ := h
  cases progress with
  | restart merkleTree => exact ⟨merkleTree, rfl⟩
  | inProgress => cases hevent
  | shouldBeStarted root size merkleTree =>
    cases hevent
    exact hgives.elim
  | notNeeded merkleTree =>
    cases hevent
    exact hgives.elim

theorem mem_of_agreed (h : ballots.Agreed f vote) :
    ∃ ballot ∈ ballots, ballot.1 = vote := by
  obtain ⟨node, hnode⟩ := Finset.card_pos.mp (show 0 < (ballots.voters vote).card from
    lt_of_lt_of_le (Nat.succ_pos f) h.2)
  exact ⟨(vote, node), Ballots.mem_voters.mp hnode, rfl⟩

/-- A step of a search in which few votes are for something else. -/
theorem undecided_step {n : ℕ} (hf : 3 * f + 1 ≤ n) (hn : n < 2 ^ 64) (s : Option RequestSM)
    (ballots : Ballots) (input : World × RequestEvent) (h : Searching s ballots ∧ Undecided n f s)
    (hfewDissent : FewDissent s input) :
    (GivesUpInTime crates s ballots input ∧ MissingCounted s input) ∧
      Searching ((requestMachine crates).step input s).2
        ((ballotRecorder).step input ballots).2 ∧
      Undecided n f ((requestMachine crates).step input s).2 := by
  obtain ⟨hsearching, hundecided⟩ := h
  have hcounted : ∀ request ∈ waitingCatchup s, ∀ ballot ∈ input.2.ledgerVote,
      (request.2.replies.count ballot.1 ballot.2).Within request.1.nodes.keySet := by
    intro request hrequest ballot hballot
    exact LedgerVotes.within_count (hundecided request hrequest).2.2.1
      (hfewDissent request hrequest ballot hballot).1 ballot.1
  refine ⟨⟨?_, ?_⟩, (searching_step s ballots input hsearching).2, ?_⟩
  · intro request hrequest output houtput hgives
    obtain ⟨hnodes, hfaulty, -, hmost⟩ := hundecided request hrequest
    obtain ⟨hs, hstate⟩ := waitingCatchup_eq_some hrequest
    obtain ⟨next, -, ⟨vote, nodeAlias, hvote, hvoted⟩ | ⟨-, hquiet, -⟩⟩ :=
      step_cases hrequest houtput
    · have hcast := hcounted request hrequest (vote, nodeAlias) hvote
      have hfew := (hfewDissent request hrequest (vote, nodeAlias) hvote).2
      have hballots : Ballots.CountedIn ((vote, nodeAlias) :: ballots)
          (request.2.replies.count vote nodeAlias) := by
        rcases hsearching request.1 hs with hfinish | ⟨state, hstate', hcounted'⟩
        · rw [hstate] at hfinish
          cases hfinish
        · rw [hstate] at hstate'
          cases hstate'
          exact Ballots.countedIn_count hcounted' vote nodeAlias
      have hcheck : (∃ merkleTree, checkNodesResponsesOnStatus crates input.1
            (request.2.replies.count vote nodeAlias) request.2.merkleTree
            request.1.nodes.keys.length request.1.f request.1.poolName =
              .ok (.restart merkleTree)) ∨
          ∃ e, checkNodesResponsesOnStatus crates input.1
            (request.2.replies.count vote nodeAlias) request.2.merkleTree
            request.1.nodes.keys.length request.1.f request.1.poolName = .err e := by
        rcases hvoted.reported with ⟨progress, hcheck, hevent⟩ | ⟨e, hcheck, -⟩
        · rw [hevent] at hgives
          obtain ⟨merkleTree, rfl⟩ := givesUp_of_poolEvent hgives
          exact .inl ⟨merkleTree, hcheck⟩
        · exact .inr ⟨e, hcheck⟩
      rw [hvote]
      rcases checked_givesUp (by omega) (by omega) hballots hcast hfew
          (LedgerVotes.atMost_count hmost vote nodeAlias) hcheck with
        hreach | ⟨agreed, hagreed, hfailed⟩
      · exact .inl hreach
      · obtain ⟨ballot, hballot, rfl⟩ := mem_of_agreed hagreed
        exact .inr ⟨ballot, hballot, hagreed, hfailed⟩
    · rw [hquiet] at hgives
      obtain ⟨event, hevent, -⟩ := hgives
      cases hevent
  · intro request hrequest ballot hballot hmost
    obtain ⟨hnodes, hfaulty, -, -⟩ := hundecided request hrequest
    rw [← ConsensusState.card_keySet]
    apply LedgerVotes.repsCnt_le (hcounted request hrequest ballot hballot)
      (hfewDissent request hrequest ballot hballot).2 hmost
    rw [ConsensusState.card_keySet]
    omega
  · intro request' hrequest'
    obtain ⟨hs', hstate'⟩ := waitingCatchup_eq_some hrequest'
    rcases @requestMachine_step_cases crates s input with ⟨output, houtput⟩ | hnone
    · obtain ⟨sm, next, rfl, hstep, hnext⟩ := requestMachine_step_some houtput
      rw [hnext] at hs'
      obtain hs' := Option.some.inj hs'
      rw [← hs'] at hstate' ⊢
      rcases hsearching sm rfl with hfinish | ⟨state, hstate, -⟩
      · rw [stateStep, hfinish] at hstep
        cases hstep
        cases hstate'
      · have hrequest : (sm, state) ∈ waitingCatchup (some sm) := by
          simp only [waitingCatchup, hstate]
          rfl
        obtain ⟨hnodes, hfaulty, hwithin, hmost⟩ := hundecided _ hrequest
        refine ⟨hnodes, hfaulty, ?_⟩
        rw [stateStep, hstate] at hstep
        rcases catchupConsensusStep_cases hstep with ⟨vote, nodeAlias, hvote, hvoted⟩ |
          ⟨-, -, hkept⟩
        · rcases hvoted.next with rfl | ⟨rfl, progress, hcheck, hgoes⟩
          · cases hstate'
          · rw [← RequestState.catchupConsensus.inj hstate']
            exact ⟨hcounted _ hrequest (vote, nodeAlias) hvote,
              checked_atMost (LedgerVotes.atMost_count hmost vote nodeAlias) hcheck hgoes⟩
        · rcases hkept with rfl | rfl
          · cases hstate'
          · rw [← RequestState.catchupConsensus.inj hstate']
            exact ⟨hwithin, hmost⟩
    · rw [hnone] at hs'
      cases hs'

/-- A target found has the votes of `f + 1` nodes in every run; and a search is not given up too
early in a run in which few votes are for something else. -/
theorem catchup_target_agreed (hstart : sm.state = .start)
    (hf : 3 * sm.f + 1 ≤ sm.nodes.keys.length)
    (hn : sm.nodes.keys.length < 2 ^ 64) (world : World) (ls : LedgerStatus)
    (merkleTree : MerkleTree) (inputs : List (World × RequestEvent)) :
    (requestMachine crates).Together ballotRecorder (TargetAgreed crates) (some sm) []
      ((world, .ledgerStatus ls none (some merkleTree)) :: inputs) ∧
    ((requestMachine crates).Along FewDissent (some sm)
        ((world, .ledgerStatus ls none (some merkleTree)) :: inputs) →
      (requestMachine crates).Together ballotRecorder
        (fun s ballots input => GivesUpInTime crates s ballots input ∧ MissingCounted s input)
        (some sm) [] ((world, .ledgerStatus ls none (some merkleTree)) :: inputs)) := by
  have hstep : sm.stateStep crates world (.ledgerStatus ls none (some merkleTree)) =
      .ok (.catchupConsensus ⟨∅, merkleTree⟩, { networker := [.sendAllRequest
        (ledgerStatusJson crates ls) ls.merkleRoot sm.extendedTimeout none] }) := by
    rw [stateStep, hstart]
    rfl
  have hwaiting : waitingCatchup (some sm) = none := by
    simp only [waitingCatchup, hstart]
  have hsearching : Searching (some { sm with state := .catchupConsensus ⟨∅, merkleTree⟩ }) [] := by
    rintro sm' ⟨⟩
    exact .inr ⟨_, rfl, fun vote => rfl⟩
  refine ⟨⟨?_, ?_⟩, ?_⟩
  · rw [TargetAgreed, hwaiting]
    rintro request ⟨⟩
  · rw [requestMachine_step_of_ok hstep]
    exact Machine.together_of_inv searching_step inputs hsearching
  · rintro ⟨-, hfew⟩
    refine ⟨⟨?_, ?_⟩, ?_⟩
    · rw [GivesUpInTime, hwaiting]
      rintro request ⟨⟩
    · rw [MissingCounted, hwaiting]
      rintro request ⟨⟩
    · rw [requestMachine_step_of_ok hstep] at hfew ⊢
      refine Machine.together_of_along (undecided_step hf hn) ⟨hsearching, ?_⟩ hfew
      rintro request ⟨⟩
      exact ⟨rfl, rfl, fun vote => Finset.empty_subset _, fun vote _ => Nat.zero_le _⟩

instance (votes : LedgerVotes) (f : ℕ) : Decidable (votes.FewOthers f) :=
  inferInstanceAs (Decidable ((∃ entry ∈ votes.toPairs, ¬ entry.1.isTimeout ∧
    (f < entry.2.card ∨ votes.repsCnt ≤ entry.2.card + f)) ∨
    ∀ entry ∈ votes.toPairs, entry.1.isTimeout ∧ votes.repsCnt ≤ entry.2.card + f))

instance (s : Option RequestSM) (input : World × RequestEvent) : Decidable (FewDissent s input) :=
  inferInstanceAs (Decidable (∀ request ∈ waitingCatchup s, ∀ ballot ∈ input.2.ledgerVote,
    ballot.2 ∈ request.1.nodes.keySet ∧
      (request.2.replies.count ballot.1 ballot.2).FewOthers request.1.f))

/-- The ledger status that a search is started with. -/
def searchStarted : World × RequestEvent :=
  (World.at 0, .ledgerStatus ⟨0, "", 0, none, none, none⟩ none (some ⟨.empty [], 0, 0, 0⟩))

/-- The ledger status of a node. -/
def statusOf (node root : String) (size : ℕ) : World × RequestEvent :=
  (World.at 0, .ledgerStatus ⟨size, root, 0, none, none, none⟩ (some node) none)

/-- A node says two things, one times out, and two agree. -/
theorem catchup_target_agreed_two :
    (requestMachine echoCrates).Together ballotRecorder
      (fun s ballots input => GivesUpInTime echoCrates s ballots input ∧ MissingCounted s input)
      (some fourNodesRequest) []
      [searchStarted, statusOf "Node1" "X" 5, statusOf "Node1" "Y" 5, statusOf "Node2" "X" 5] :=
  (catchup_target_agreed rfl (by decide) (by decide) (World.at 0) ⟨0, "", 0, none, none, none⟩
    ⟨.empty [], 0, 0, 0⟩ [statusOf "Node1" "X" 5, statusOf "Node1" "Y" 5,
      statusOf "Node2" "X" 5]).2 (by decide +kernel)

/-- Three nodes say three things, and the search is given up though the fourth could agree with any
of them. -/
theorem fourth_node_not_awaited :
    ¬ ((requestMachine echoCrates).Together ballotRecorder (TargetAgreed echoCrates)
        (some fourNodesRequest) [] [searchStarted, statusOf "Node1" "X" 5, statusOf "Node2" "Y" 5,
          statusOf "Node3" "Z" 5] ∧
      (requestMachine echoCrates).Together ballotRecorder
        (fun s ballots input => GivesUpInTime echoCrates s ballots input ∧ MissingCounted s input)
        (some fourNodesRequest) [] [searchStarted, statusOf "Node1" "X" 5, statusOf "Node2" "Y" 5,
          statusOf "Node3" "Z" 5]) := by
  rintro ⟨-, -, -, -, ⟨hgivesUp, -⟩, -⟩
  obtain hreach | ⟨ballot, hballot, ⟨-, hagreed⟩, -⟩ := hgivesUp
    _ rfl _ rfl ⟨_, rfl, trivial⟩
  · exact absurd (hreach ("X", 5, none) (by decide)) (by decide +kernel)
  · revert hagreed
    revert ballot
    decide +kernel

end IndySdk.Pool
