import Tendermint.Lib.Slice
import Tendermint.Types.Vote
import Tendermint.Verifier.Types

/-!
# Voting power

`operations/voting_power.rs`: how much of a validator set's voting power signed a commit.

`NonAbsentCommitVotes::new` turns the commit's `BlockIdFlagCommit` entries into signed votes, sorts
them by validator address and rejects a commit in which two of them share an address.
`voting_power_in_impl` then walks the validator set: each validator looks its vote up by binary
search (`has_voted`), the vote's signature is checked against the validator's key unless a flag
says it was already checked, the index of the vote is recorded in `seen_vals`, and the loop stops
as soon as the tally passes the threshold. `voting_power_in_sets` runs that walk twice over one
collection of votes, so the second walk inherits the flags of the first. What a returned tally is
made of is stated once for each of the two (`votingPowerIn_run_eq_ok`, `votingPowerInSets_walks`),
and the proofs about their results start from that.

The reusable buffer `sign_bytes` of `NonAbsentCommitVotes` is cleared before each use and is not
modelled. `sort_unstable_by_key` is modelled by a stable sort: a collection whose order among equal
addresses could differ is rejected by the duplicate check that follows, with the same address
either way.

The last section rules out the panics of counting (an index past `i32::MAX`, the tally's `u64`
addition and its `debug_assert!`, the products of `is_enough_power`) on sets that keep the
invariant of `Set::try_from_parts`, the walk by induction from the bound that the tally and the
powers still to count stay within the total.
-/

namespace Tendermint

namespace Verifier

open Rust

namespace VotingPowerTally

/-- `VotingPowerTally::new`. -/
def new (total : UInt64) (trustThreshold : TrustThresholdFraction) : VotingPowerTally :=
  ⟨total, 0, trustThreshold⟩

/-- `VotingPowerTally::tally`: the `u64` addition and the `debug_assert!` both panic. -/
def tally (t : VotingPowerTally) (power : UInt64) : Option VotingPowerTally := do
  let tallied ← checkedAdd t.tallied power
  assert (decide (tallied ≤ t.total))
  pure { t with tallied }

/-- `VotingPowerTally::check`. -/
def check (t : VotingPowerTally) : Option (Except VotingPowerTally Unit) := do
  let enough ← t.trustThreshold.isEnoughPower t.tallied t.total
  pure (if enough then .ok () else .error t)

end VotingPowerTally

/-- `NonAbsentCommitVote`. -/
structure NonAbsentCommitVote where
  signedVote : SignedVote
  verified : Bool

namespace NonAbsentCommitVote

/-- `NonAbsentCommitVote::new`: `None` for an absent or nil vote, `MissingSignature` for a commit
vote without a signature. -/
def new (commitSig : CommitSig) (validatorIndex : ValidatorIndex) (commit : Commit)
    (chainId : ChainId) : Option (Except VerificationError NonAbsentCommitVote) :=
  match commitSig with
  | .blockIdFlagAbsent => none
  | .blockIdFlagCommit validatorAddress timestamp signature =>
    let vote : Vote :=
      { voteType := .precommit, height := commit.height, round := commit.round,
        blockId := some commit.blockId, timestamp := some timestamp, validatorAddress,
        validatorIndex, signature, extension := [], extensionSignature := none }
    some (match SignedVote.fromVote vote chainId with
      | none => .error .missingSignature
      | some signedVote => .ok ⟨signedVote, false⟩)
  | .blockIdFlagNil .. => none

/-- `NonAbsentCommitVote::validator_id`. -/
def validatorId (v : NonAbsentCommitVote) : AccountId := v.signedVote.validatorId

end NonAbsentCommitVote

/-- The `flat_map` over the enumerated signatures in `NonAbsentCommitVotes::new`, collected into a
`Result`: the index conversion is unwrapped, and the first error stops the iteration. -/
def collectVotes (commit : Commit) (chainId : ChainId) :
    Nat → List CommitSig → ExceptT VerificationError Option (List NonAbsentCommitVote)
  | _, [] => pure []
  | idx, commitSig :: rest => do
    let validatorIndex ← ExceptT.lift (ValidatorIndex.tryFromUsize idx).toOption
    match NonAbsentCommitVote.new commitSig validatorIndex commit chainId with
    | none => collectVotes commit chainId (idx + 1) rest
    | some vote => do
      let vote ← ExceptT.mk (some vote)
      let votes ← collectVotes commit chainId (idx + 1) rest
      pure (vote :: votes)

/-- `NonAbsentCommitVotes`, the votes sorted by validator address. -/
structure NonAbsentCommitVotes where
  votes : List NonAbsentCommitVote

namespace NonAbsentCommitVotes

/-- `NonAbsentCommitVotes::new`. -/
def new (signedHeader : SignedHeader) : ExceptT VerificationError Option NonAbsentCommitVotes := do
  let votes ← collectVotes signedHeader.commit signedHeader.header.chainId 0
    signedHeader.commit.signatures
  let votes := Slice.sortByKey NonAbsentCommitVote.validatorId votes
  match Slice.findAdjacentDup NonAbsentCommitVote.validatorId votes with
  | some vote => throw (.duplicateValidator vote.validatorId)
  | none => pure ⟨votes⟩

/-- `NonAbsentCommitVotes::has_voted`: the index of the validator's vote, if it cast one, with the
vote's signature checked (and flagged as checked) unless the flag was already set. -/
def hasVoted (V : Signature.Verifier) (P : Prost) (self : NonAbsentCommitVotes)
    (validator : Validator.Info) :
    ExceptT VerificationError Option (Option Nat × NonAbsentCommitVotes) :=
  match Slice.binarySearchByKey self.votes validator.address NonAbsentCommitVote.validatorId with
  | .ok idx => do
    let vote ← ExceptT.lift self.votes[idx]?
    if !vote.verified then
      let signBytes := vote.signedVote.signBytes P
      if !V.verify validator.pubKey signBytes vote.signedVote.signature then
        throw (.invalidSignature vote.signedVote.signature.bytes.toList validator signBytes)
      pure (some idx, ⟨self.votes.set idx { vote with verified := true }⟩)
    else pure (some idx, self)
  | .error _ => pure (none, self)

end NonAbsentCommitVotes

/-- `VotingPowerCalculator::total_power_of`: a `u64` sum, panicking on overflow. -/
def totalPowerOf (validatorSet : Validator.Set) : Option UInt64 :=
  validatorSet.validators.foldlM (fun total v => checkedAdd total v.power.toU64) 0

/-- The `for` loop of `voting_power_in_impl` over the validators left, with the tally, `seen_vals`
and the votes as its state. -/
def votingPowerInLoop (V : Signature.Verifier) (P : Prost) :
    List Validator.Info → VotingPowerTally → List Nat → NonAbsentCommitVotes →
      ExceptT VerificationError Option (VotingPowerTally × NonAbsentCommitVotes)
  | [], power, _, votes => pure (power, votes)
  | validator :: rest, power, seenVals, votes => do
    let (voted, votes) ← votes.hasVoted V P validator
    match voted with
    | none => votingPowerInLoop V P rest power seenVals votes
    | some idx =>
      if seenVals.contains idx then throw (.duplicateValidator validator.address)
      let seenVals := seenVals ++ [idx]
      let power ← ExceptT.lift (power.tally validator.power.toU64)
      let checked ← ExceptT.lift power.check
      -- the early `break` once the tally passes the threshold
      match checked with
      | .ok () => pure (power, votes)
      | .error _ => votingPowerInLoop V P rest power seenVals votes

/-- `voting_power_in_impl`, returning the votes it leaves behind. -/
def votingPowerInImpl (V : Signature.Verifier) (P : Prost) (votes : NonAbsentCommitVotes)
    (validatorSet : Validator.Set) (trustThreshold : TrustThresholdFraction)
    (totalVotingPower : UInt64) :
    ExceptT VerificationError Option (VotingPowerTally × NonAbsentCommitVotes) :=
  votingPowerInLoop V P validatorSet.validators (.new totalVotingPower trustThreshold) [] votes

/-- `ProvidedVotingPowerCalculator::voting_power_in`. -/
def votingPowerIn (V : Signature.Verifier) (P : Prost) (signedHeader : SignedHeader)
    (validatorSet : Validator.Set) (trustThreshold : TrustThresholdFraction) :
    ExceptT VerificationError Option VotingPowerTally := do
  let votes ← NonAbsentCommitVotes.new signedHeader
  let total ← ExceptT.lift (totalPowerOf validatorSet)
  let (power, _) ← votingPowerInImpl V P votes validatorSet trustThreshold total
  pure power

/-- `ProvidedVotingPowerCalculator::voting_power_in_sets`: both walks over one collection of
votes. -/
def votingPowerInSets (V : Signature.Verifier) (P : Prost) (signedHeader : SignedHeader)
    (firstSet secondSet : Validator.Set × TrustThresholdFraction) :
    ExceptT VerificationError Option (VotingPowerTally × VotingPowerTally) := do
  let votes ← NonAbsentCommitVotes.new signedHeader
  let firstTotal ← ExceptT.lift (totalPowerOf firstSet.1)
  let (firstTally, votes) ← votingPowerInImpl V P votes firstSet.1 firstSet.2 firstTotal
  let secondTotal ← ExceptT.lift (totalPowerOf secondSet.1)
  let (secondTally, _) ← votingPowerInImpl V P votes secondSet.1 secondSet.2 secondTotal
  pure (firstTally, secondTally)

/-- `VotingPowerCalculator::check_enough_trust_and_signers`: the trusted tally is checked first. -/
def checkEnoughTrustAndSigners (V : Signature.Verifier) (P : Prost) (untrustedHeader : SignedHeader)
    (trustedValidators : Validator.Set) (trustThreshold : TrustThresholdFraction)
    (untrustedValidators : Validator.Set) : ExceptT VerificationError Option Unit := do
  let (trustedPower, untrustedPower) ← votingPowerInSets V P untrustedHeader
    (trustedValidators, trustThreshold) (untrustedValidators, .twoThirds)
  match ← ExceptT.lift trustedPower.check with
  | .error tally => throw (.notEnoughTrust tally)
  | .ok () =>
    match ← ExceptT.lift untrustedPower.check with
    | .error tally => throw (.insufficientSignersOverlap tally)
    | .ok () => pure ()

/-- `VotingPowerCalculator::check_signers_overlap`. -/
def checkSignersOverlap (V : Signature.Verifier) (P : Prost) (untrustedHeader : SignedHeader)
    (untrustedValidators : Validator.Set) : ExceptT VerificationError Option Unit := do
  let tally ← votingPowerIn V P untrustedHeader untrustedValidators .twoThirds
  match ← ExceptT.lift tally.check with
  | .error tally => throw (.insufficientSignersOverlap tally)
  | .ok () => pure ()

/-! ## The votes of a commit -/

/-- The canonical precommit that a commit entry with the given timestamp is signed as. -/
def precommit (commit : Commit) (chainId : ChainId) (timestamp : Time) : CanonicalVote :=
  ⟨.precommit, commit.height, commit.round, some commit.blockId, some timestamp, chainId⟩

/-- The bytes a validator signs for the entry of a signed header's commit with the given
timestamp. -/
def commitVoteSignBytes (P : Prost) (sh : SignedHeader) (timestamp : Time) : Bytes :=
  P.canonicalVoteLengthDelimited (precommit sh.commit sh.header.chainId timestamp).toRaw

/-- The vote that `NonAbsentCommitVote::new` makes of a signed commit entry. -/
def commitVote (commit : Commit) (chainId : ChainId) : CommitSig → Option NonAbsentCommitVote
  | .blockIdFlagCommit a ts (some s) => some ⟨⟨precommit commit chainId ts, a, s⟩, false⟩
  | _ => none

@[simp] theorem NonAbsentCommitVote.validatorId_eq (v : NonAbsentCommitVote) :
    v.validatorId = v.signedVote.validatorAddress := rfl

/-- A vote built from a commit signature starts unverified. -/
theorem commitVote_verified {commit chainId cs v} (h : commitVote commit chainId cs = some v) :
    v.verified = false := by
  rcases cs with _ | ⟨a, ts, _ | s⟩ | ⟨a, ts, s⟩ <;> simp [commitVote] at h
  rw [← h]

/-- A vote built from a commit signature comes from a signed `Commit` entry, and carries the
precommit of that entry. -/
theorem commitVote_eq_some {commit chainId cs v} (h : commitVote commit chainId cs = some v) :
    ∃ ts, cs = .blockIdFlagCommit v.validatorId ts (some v.signedVote.signature) ∧
      v.signedVote.vote = precommit commit chainId ts := by
  rcases cs with _ | ⟨a, ts, _ | s⟩ | ⟨a, ts, s⟩ <;> simp [commitVote] at h
  subst h
  exact ⟨ts, rfl, rfl⟩

/-- Collecting succeeds only when every commit entry is signed, and then keeps the votes of the
commit entries in order. -/
theorem collectVotes_run_eq_ok {commit chainId} :
    ∀ {sigs : List CommitSig} {k votes}, (collectVotes commit chainId k sigs).run = some (.ok votes) →
      votes = sigs.filterMap (commitVote commit chainId) ∧ ∀ a ts, .blockIdFlagCommit a ts none ∉ sigs
  | [], k, votes, h => by
    simp only [collectVotes, ExceptT.run_pure, Option.pure_def, Option.some.injEq,
      Except.ok.injEq] at h
    simp [h]
  | cs :: rest, k, votes, h => by
    unfold collectVotes at h
    rcases hi : ValidatorIndex.tryFromUsize k with e | vi
    · simp [hi, Except.toOption] at h
    simp only [hi, Except.toOption, ExceptT.run_bind_lift, Option.bind_eq_bind, Option.bind_some] at h
    -- the entry is absent or nil, unsigned, or a signed commit entry
    rcases cs with _ | ⟨a, ts, _ | sig⟩ | ⟨a, ts, sig⟩
    · simp only [NonAbsentCommitVote.new] at h
      obtain ⟨rfl, hs⟩ := collectVotes_run_eq_ok h
      exact ⟨rfl, by simpa using hs⟩
    · simp only [NonAbsentCommitVote.new, SignedVote.fromVote, Option.map_none] at h
      obtain ⟨v, hv, -⟩ := run_bind_eq_ok.mp h
      cases hv
    · simp only [NonAbsentCommitVote.new, SignedVote.fromVote, Option.map_some] at h
      obtain ⟨v, hv, h⟩ := run_bind_eq_ok.mp h
      obtain ⟨vs, hvs, h⟩ := run_bind_eq_ok.mp h
      simp only [ExceptT.run_pure, Option.pure_def, Option.some.injEq, Except.ok.injEq] at h
      simp only [ExceptT.run_mk, Option.some.injEq, Except.ok.injEq] at hv
      obtain ⟨rfl, hs⟩ := collectVotes_run_eq_ok hvs
      subst h hv
      exact ⟨rfl, by simpa using hs⟩
    · simp only [NonAbsentCommitVote.new] at h
      obtain ⟨rfl, hs⟩ := collectVotes_run_eq_ok h
      exact ⟨rfl, by simpa using hs⟩

/-- With every commit entry signed and every index representable, collecting succeeds. -/
theorem collectVotes_run_of_signed {commit chainId} :
    ∀ {sigs : List CommitSig} {k}, k + sigs.length ≤ 2 ^ 31 →
      (∀ a ts, .blockIdFlagCommit a ts none ∉ sigs) →
      (collectVotes commit chainId k sigs).run = some (.ok (sigs.filterMap (commitVote commit chainId)))
  | [], _, _, _ => rfl
  | cs :: rest, k, hk, hs => by
    have hi : ValidatorIndex.tryFromUsize k = .ok ⟨k, by simp at hk; omega⟩ := by
      rw [ValidatorIndex.tryFromUsize, dif_pos]
    have ih : (collectVotes commit chainId (k + 1) rest).run =
        some (.ok (rest.filterMap (commitVote commit chainId))) :=
      collectVotes_run_of_signed (by simp at hk; omega)
        (fun a ts h => hs a ts (List.mem_cons_of_mem _ h))
    unfold collectVotes
    simp only [hi, Except.toOption, ExceptT.run_bind_lift, Option.bind_eq_bind, Option.bind_some]
    rcases cs with _ | ⟨a, ts, _ | sig⟩ | ⟨a, ts, sig⟩
    · simp only [NonAbsentCommitVote.new]
      rw [ih]
      rfl
    · exact absurd List.mem_cons_self (hs a ts)
    · simp only [NonAbsentCommitVote.new, SignedVote.fromVote, Option.map_some]
      rw [run_bind_of_ok (x := ExceptT.mk (some (.ok _))) rfl, run_bind_of_ok ih]
      rfl
    · simp only [NonAbsentCommitVote.new]
      rw [ih]
      rfl

/-- Two signed commit entries of one address give two votes of that address. -/
theorem not_nodup_of_duplicate {commit chainId} {sigs : List CommitSig} {a ts₁ s₁ ts₂ s₂}
    (hdup : [.blockIdFlagCommit a ts₁ (some s₁), .blockIdFlagCommit a ts₂ (some s₂)].Sublist sigs) :
    ¬ ((sigs.filterMap (commitVote commit chainId)).map NonAbsentCommitVote.validatorId).Nodup := by
  intro hnd
  have hsub := (hdup.filterMap (commitVote commit chainId)).map NonAbsentCommitVote.validatorId
  have := hnd.sublist hsub
  simp [commitVote, NonAbsentCommitVote.validatorId, SignedVote.validatorId] at this

/-- The errors that counting voting power reports by itself: a repeated validator, a commit vote
without a signature, and a signature that its validator's key rejects. -/
inductive TallyError : VerificationError → Prop
  | duplicateValidator (address : AccountId) : TallyError (.duplicateValidator address)
  | missingSignature : TallyError .missingSignature
  | invalidSignature (signature : Bytes) (validator : Validator.Info) (signBytes : Bytes) :
      TallyError (.invalidSignature signature validator signBytes)

/-- An error of the tally is never `NotEnoughTrust`. -/
theorem TallyError.ne_notEnoughTrust {e : VerificationError} (h : TallyError e)
    (tally : VotingPowerTally) : e ≠ .notEnoughTrust tally := by
  cases h <;> simp

/-- Collecting fails only on a commit vote without a signature. -/
theorem collectVotes_run_eq_error {commit chainId} :
    ∀ {sigs : List CommitSig} {k e},
      (collectVotes commit chainId k sigs).run = some (.error e) → e = .missingSignature
  | [], k, e, h => by simp [collectVotes] at h
  | cs :: rest, k, e, h => by
    unfold collectVotes at h
    rcases hi : ValidatorIndex.tryFromUsize k with e' | vi
    · simp [hi, Except.toOption] at h
    simp only [hi, Except.toOption, ExceptT.run_bind_lift, Option.bind_eq_bind, Option.bind_some] at h
    rcases cs with _ | ⟨a, ts, _ | sig⟩ | ⟨a, ts, sig⟩
    · exact collectVotes_run_eq_error h
    · simp only [NonAbsentCommitVote.new, SignedVote.fromVote, Option.map_none] at h
      rcases run_bind_eq_error.mp h with h | ⟨v, hv, -⟩
      · simpa using h.symm
      · cases hv
    · simp only [NonAbsentCommitVote.new, SignedVote.fromVote, Option.map_some] at h
      rcases run_bind_eq_error.mp h with h | ⟨v, -, h⟩
      · cases h
      rcases run_bind_eq_error.mp h with h | ⟨vs, -, h⟩
      · exact collectVotes_run_eq_error h
      · cases h
    · exact collectVotes_run_eq_error h

namespace NonAbsentCommitVotes

/-- A collection that `new` returns holds the votes of the commit's entries, all of them signed,
in strictly increasing order of address. -/
theorem new_run_eq_ok {sh : SignedHeader} {votes : NonAbsentCommitVotes}
    (h : (new sh).run = some (.ok votes)) :
    votes.votes.Perm (sh.commit.signatures.filterMap (commitVote sh.commit sh.header.chainId)) ∧
      votes.votes.Pairwise (fun a b => a.validatorId < b.validatorId) ∧
      ∀ a ts, .blockIdFlagCommit a ts none ∉ sh.commit.signatures := by
  unfold new at h
  obtain ⟨vs, hvs, h⟩ := run_bind_eq_ok.mp h
  obtain ⟨rfl, hsigned⟩ := collectVotes_run_eq_ok hvs
  dsimp only at h
  split at h
  · cases h
  · next hnone =>
    simp only [ExceptT.run_pure, Option.pure_def, Option.some.injEq, Except.ok.injEq] at h
    subst h
    exact ⟨Slice.sortByKey_perm .., Slice.pairwise_lt_of_findAdjacentDup_eq_none
      (Slice.sortByKey_sorted ..) hnone, hsigned⟩

/-- Votes sorted strictly by validator address have distinct addresses. -/
theorem nodup_validatorId_of_pairwise {l : List NonAbsentCommitVote}
    (h : l.Pairwise (fun a b => a.validatorId < b.validatorId)) :
    (l.map NonAbsentCommitVote.validatorId).Nodup :=
  List.pairwise_map.mpr (h.imp ne_of_lt)

/-- A commit with two entries of one address never yields a collection of votes. -/
theorem new_run_ne_ok_of_duplicate {sh : SignedHeader} {a ts₁ s₁ ts₂ s₂}
    (hdup : [.blockIdFlagCommit a ts₁ s₁, .blockIdFlagCommit a ts₂ s₂].Sublist sh.commit.signatures)
    (votes : NonAbsentCommitVotes) : (new sh).run ≠ some (.ok votes) := by
  intro h
  obtain ⟨hperm, hsorted, hsigned⟩ := new_run_eq_ok h
  -- an unsigned entry cannot be in a commit whose votes were collected
  rcases s₁ with _ | s₁
  · exact hsigned a ts₁ (hdup.subset List.mem_cons_self)
  rcases s₂ with _ | s₂
  · exact hsigned a ts₂ (hdup.subset (by simp))
  exact not_nodup_of_duplicate hdup ((hperm.map _).nodup_iff.mp (nodup_validatorId_of_pairwise hsorted))

/-- With every entry signed and indexable, two entries of one address are reported as a duplicate
validator. -/
theorem new_run_of_duplicate {sh : SignedHeader} {a ts₁ s₁ ts₂ s₂}
    (hdup : [.blockIdFlagCommit a ts₁ (some s₁), .blockIdFlagCommit a ts₂ (some s₂)].Sublist
      sh.commit.signatures)
    (hsigned : ∀ a ts, .blockIdFlagCommit a ts none ∉ sh.commit.signatures)
    (hlen : sh.commit.signatures.length ≤ 2 ^ 31) :
    ∃ a', (new sh).run = some (.error (.duplicateValidator a')) := by
  unfold new
  rw [run_bind_of_ok (collectVotes_run_of_signed (by simpa using hlen) hsigned)]
  dsimp only
  split
  · next v _ => exact ⟨v.validatorId, rfl⟩
  · next hnone =>
    have hsorted := Slice.pairwise_lt_of_findAdjacentDup_eq_none (Slice.sortByKey_sorted _ _) hnone
    exact absurd (((Slice.sortByKey_perm _ _).map _).nodup_iff.mp
      (nodup_validatorId_of_pairwise hsorted)) (not_nodup_of_duplicate hdup)

/-- The votes that `NonAbsentCommitVotes::new` collects are all unverified. -/
theorem new_flags_down {sh : SignedHeader} {votes : NonAbsentCommitVotes}
    (h : (new sh).run = some (.ok votes)) :
    ∀ v ∈ votes.votes, v.verified = false := by
  intro v hv
  obtain ⟨cs, -, hcs⟩ := List.mem_filterMap.mp ((new_run_eq_ok h).1.subset hv)
  exact commitVote_verified hcs

/-- Each vote of a collection that `new` returns is the vote of a signed commit entry of its
address. -/
theorem new_origin {sh : SignedHeader} {votes : NonAbsentCommitVotes}
    (h : (new sh).run = some (.ok votes)) {v} (hv : v ∈ votes.votes) :
    ∃ (j : Nat) (ts : Time), sh.commit.signatures[j]? =
        some (CommitSig.blockIdFlagCommit v.validatorId ts (some v.signedVote.signature)) ∧
      v.signedVote.vote = precommit sh.commit sh.header.chainId ts := by
  obtain ⟨cs, hcs, hv⟩ := List.mem_filterMap.mp ((new_run_eq_ok h).1.subset hv)
  obtain ⟨ts, rfl, hvote⟩ := commitVote_eq_some hv
  obtain ⟨j, hj⟩ := List.mem_iff_getElem?.mp hcs
  exact ⟨j, ts, hj, hvote⟩

/-- The address of a signed commit entry has a vote in the collection. -/
theorem new_mem_of_signed {sh : SignedHeader} {votes : NonAbsentCommitVotes}
    (h : (new sh).run = some (.ok votes)) {a ts s}
    (hmem : CommitSig.blockIdFlagCommit a ts (some s) ∈ sh.commit.signatures) :
    a ∈ votes.votes.map NonAbsentCommitVote.validatorId := by
  have hv : (⟨⟨precommit sh.commit sh.header.chainId ts, a, s⟩, false⟩ : NonAbsentCommitVote) ∈
      votes.votes :=
    (new_run_eq_ok h).1.symm.subset (List.mem_filterMap.mpr ⟨_, hmem, rfl⟩)
  exact List.mem_map.mpr ⟨_, hv, rfl⟩

/-- The errors of `NonAbsentCommitVotes::new` are errors of the tally. -/
theorem new_run_eq_error {sh : SignedHeader} {e : VerificationError}
    (h : (new sh).run = some (.error e)) : TallyError e := by
  unfold new at h
  rcases run_bind_eq_error.mp h with h | ⟨vs, -, h⟩
  · rw [collectVotes_run_eq_error h]
    exact .missingSignature
  dsimp only at h
  split at h
  · cases h
    exact .duplicateValidator _
  · cases h

end NonAbsentCommitVotes

/-! ## Looking a validator's vote up -/

namespace NonAbsentCommitVotes

/-- `has_voted` in one piece: a found vote is flagged as checked once its flag is up or its
signature verifies. -/
theorem hasVoted_run (V : Signature.Verifier) (P : Prost) (self : NonAbsentCommitVotes)
    (w : Validator.Info) :
    (self.hasVoted V P w).run =
      match Slice.binarySearchByKey self.votes w.address NonAbsentCommitVote.validatorId with
      | .error _ => some (.ok (none, self))
      | .ok idx =>
        match self.votes[idx]? with
        | none => none
        | some v =>
          if v.verified || V.verify w.pubKey (v.signedVote.signBytes P) v.signedVote.signature then
            some (.ok (some idx, ⟨self.votes.set idx { v with verified := true }⟩))
          else
            some (.error (.invalidSignature v.signedVote.signature.bytes.toList w
              (v.signedVote.signBytes P))) := by
  unfold hasVoted
  rcases hs : Slice.binarySearchByKey self.votes w.address NonAbsentCommitVote.validatorId
    with _ | idx
  · rfl
  · rcases hv : self.votes[idx]? with _ | v
    · simp [hv]
    · simp only [hv, ExceptT.run_bind_lift, Option.bind_eq_bind, Option.bind_some]
      rcases hf : v.verified
      · cases V.verify w.pubKey (v.signedVote.signBytes P) v.signedVote.signature <;> rfl
      · -- an already checked vote is left as it is, which is setting its flag again
        obtain ⟨hi, rfl⟩ := List.getElem?_eq_some_iff.mp hv
        have hset : self.votes.set idx { self.votes[idx] with verified := true } = self.votes := by
          rw [← hf]
          exact List.set_getElem_self hi
        simp [hset]

/-- What a returning `has_voted` did: nothing, for a validator without a vote, or set the flag of
the vote of the validator's address, checking its signature under the validator's key when the flag
was down. -/
theorem hasVoted_run_eq_ok {V : Signature.Verifier} {P : Prost} {self self' : NonAbsentCommitVotes}
    {w : Validator.Info} {r : Option Nat} (h : (self.hasVoted V P w).run = some (.ok (r, self'))) :
    (r = none ∧ self' = self) ∨
      ∃ idx, r = some idx ∧ ∃ hi : idx < self.votes.length,
        self.votes[idx].validatorId = w.address ∧
        self'.votes = self.votes.set idx { self.votes[idx] with verified := true } ∧
        (self.votes[idx].verified = false → V.verify w.pubKey
          (self.votes[idx].signedVote.signBytes P) self.votes[idx].signedVote.signature = true) := by
  rw [hasVoted_run] at h
  split at h
  · simp only [Option.some.injEq, Except.ok.injEq, Prod.mk.injEq] at h
    exact .inl ⟨h.1.symm, h.2.symm⟩
  · next idx hs =>
    obtain ⟨hi, hkey⟩ := Slice.binarySearchByKey_ok hs
    rw [List.getElem?_eq_getElem hi] at h
    dsimp only at h
    split at h
    · next hc =>
      simp only [Option.some.injEq, Except.ok.injEq, Prod.mk.injEq] at h
      refine .inr ⟨idx, h.1.symm, hi, hkey, by rw [← h.2], fun hf => ?_⟩
      simpa [hf] using hc
    · cases h

/-- Without a vote of the validator, `has_voted` leaves the votes as they are. -/
theorem hasVoted_run_eq_ok_none {V : Signature.Verifier} {P : Prost}
    {self self' : NonAbsentCommitVotes} {w : Validator.Info}
    (h : (self.hasVoted V P w).run = some (.ok (none, self'))) : self' = self := by
  rcases hasVoted_run_eq_ok h with ⟨-, rfl⟩ | ⟨_, hidx, _⟩
  · rfl
  · cases hidx

/-- A call of `has_voted` changes no vote's signed vote, only verified flags. -/
theorem hasVoted_signedVotes {V : Signature.Verifier} {P : Prost} {self self' : NonAbsentCommitVotes}
    {w : Validator.Info} {r} (h : (self.hasVoted V P w).run = some (.ok (r, self'))) :
    self'.votes.map (·.signedVote) = self.votes.map (·.signedVote) := by
  rcases hasVoted_run_eq_ok h with ⟨-, rfl⟩ | ⟨idx, -, hi, -, hset, -⟩
  · rfl
  · rw [hset]
    apply List.ext_getElem (by simp)
    intro i h₁ h₂
    simp only [List.getElem_map, List.getElem_set]
    split
    · next e => subst e; rfl
    · rfl

/-- The errors of `has_voted` are errors of the tally. -/
theorem hasVoted_run_eq_error {V : Signature.Verifier} {P : Prost} {self : NonAbsentCommitVotes}
    {w : Validator.Info} {e : VerificationError}
    (h : (self.hasVoted V P w).run = some (.error e)) : TallyError e := by
  rw [hasVoted_run] at h
  split at h
  · cases h
  · split at h
    · cases h
    · split at h
      · cases h
      · cases h
        exact .invalidSignature _ _ _

/-- On votes sorted by address, `has_voted` passes over exactly the validators whose address has no
vote. -/
theorem hasVoted_eq_none_iff {V : Signature.Verifier} {P : Prost} {self self' : NonAbsentCommitVotes}
    {w : Validator.Info} {r : Option Nat}
    (hs : self.votes.Pairwise (fun a b => a.validatorId < b.validatorId))
    (h : (self.hasVoted V P w).run = some (.ok (r, self'))) :
    r = none ↔ w.address ∉ self.votes.map NonAbsentCommitVote.validatorId := by
  constructor
  · rintro rfl hmem
    obtain ⟨i, hi⟩ := (Slice.binarySearchByKey_eq_ok (hs.imp le_of_lt)).mpr
      (by simpa using hmem)
    rw [hasVoted_run, hi] at h
    dsimp only at h
    -- a vote that is found is never answered with `none`
    split at h
    · cases h
    · split at h <;> simp at h
  · intro hnot
    rcases hasVoted_run_eq_ok h with ⟨rfl, -⟩ | ⟨idx, rfl, hi, hkey, -⟩
    · rfl
    · exact absurd (List.mem_map.mpr ⟨_, List.getElem_mem hi, hkey⟩) hnot

/-- A validator whose address no vote carries has not voted, and the votes are left as they were. -/
theorem hasVoted_run_of_not_mem {V : Signature.Verifier} {P : Prost} {self : NonAbsentCommitVotes}
    {w : Validator.Info} (hs : self.votes.Pairwise (fun a b => a.validatorId < b.validatorId))
    (hnot : w.address ∉ self.votes.map NonAbsentCommitVote.validatorId) :
    (self.hasVoted V P w).run = some (.ok (none, self)) := by
  rw [hasVoted_run]
  rcases hsearch : Slice.binarySearchByKey self.votes w.address NonAbsentCommitVote.validatorId
    with e | i
  · rfl
  · exact absurd (by simpa using (Slice.binarySearchByKey_eq_ok (hs.imp le_of_lt)).mp ⟨i, hsearch⟩)
      hnot

/-- Every flag up was raised by a validator of `vals` whose key accepts the vote. -/
def FlagsWitnessed (V : Signature.Verifier) (P : Prost) (vals : List Validator.Info)
    (self : NonAbsentCommitVotes) : Prop :=
  ∀ i (hi : i < self.votes.length), self.votes[i].verified = true →
    ∃ u ∈ vals, u.address = self.votes[i].validatorId ∧
      V.verify u.pubKey (self.votes[i].signedVote.signBytes P) self.votes[i].signedVote.signature = true

/-- A call of `has_voted` for a validator of the set keeps every raised flag witnessed by a
validator of the set. -/
theorem hasVoted_flagsWitnessed {V : Signature.Verifier} {P : Prost} {vals : List Validator.Info}
    {w : Validator.Info} (hw : w ∈ vals) {self self' : NonAbsentCommitVotes} {r}
    (hQ : FlagsWitnessed V P vals self) (h : (self.hasVoted V P w).run = some (.ok (r, self'))) :
    FlagsWitnessed V P vals self' := by
  rcases hasVoted_run_eq_ok h with ⟨-, rfl⟩ | ⟨idx, -, hi, hkey, hset, hcheck⟩
  · exact hQ
  · intro i hi' hf
    have hlen : i < self.votes.length := by simpa [hset] using hi'
    simp only [hset] at hf ⊢
    by_cases hidx : idx = i
    · subst hidx
      simp only [List.getElem_set_self]
      cases hv : self.votes[idx].verified
      · exact ⟨w, hw, hkey.symm, hcheck hv⟩
      · exact hQ idx hi hv
    · simp only [List.getElem_set_ne hidx] at hf ⊢
      exact hQ i hlen hf

/-- Two collections of the same votes whose flags differ only on votes whose signature every
validator of `vals` with the vote's address accepts. -/
def FlagsAgree (V : Signature.Verifier) (P : Prost) (vals : List Validator.Info)
    (self₁ self₂ : NonAbsentCommitVotes) : Prop :=
  self₁.votes.map (·.signedVote) = self₂.votes.map (·.signedVote) ∧
    ∀ i (h₁ : i < self₁.votes.length) (h₂ : i < self₂.votes.length),
      self₁.votes[i].verified ≠ self₂.votes[i].verified →
        ∀ w ∈ vals, w.address = self₁.votes[i].validatorId →
          V.verify w.pubKey (self₁.votes[i].signedVote.signBytes P)
            self₁.votes[i].signedVote.signature = true

namespace FlagsAgree

variable {V : Signature.Verifier} {P : Prost} {vals : List Validator.Info}
  {self₁ self₂ : NonAbsentCommitVotes}

/-- Votes that agree but for their flags are as many. -/
theorem length_eq (h : FlagsAgree V P vals self₁ self₂) :
    self₁.votes.length = self₂.votes.length := by
  simpa using congrArg List.length h.1

/-- Votes that agree but for their flags carry the same signed votes. -/
theorem signedVote_eq (h : FlagsAgree V P vals self₁ self₂) {i} (h₁ : i < self₁.votes.length)
    (h₂ : i < self₂.votes.length) : self₁.votes[i].signedVote = self₂.votes[i].signedVote := by
  have := congrArg (·[i]?) h.1
  simpa [h₁, h₂] using this

/-- Votes that agree but for their flags carry the same addresses. -/
theorem validatorIds_eq (h : FlagsAgree V P vals self₁ self₂) :
    self₁.votes.map NonAbsentCommitVote.validatorId =
      self₂.votes.map NonAbsentCommitVote.validatorId := by
  have := congrArg (List.map SignedVote.validatorId) h.1
  simp only [List.map_map] at this
  exact this

/-- Agreement on a set of validators holds on every subset. -/
theorem mono {vals' : List Validator.Info} (h : FlagsAgree V P vals self₁ self₂)
    (hsub : vals' ⊆ vals) : FlagsAgree V P vals' self₁ self₂ :=
  ⟨h.1, fun i h₁ h₂ hne w hw => h.2 i h₁ h₂ hne w (hsub hw)⟩

/-- Setting the flag of one vote in both collections keeps them in agreement. -/
theorem set {idx} (h : FlagsAgree V P vals self₁ self₂) (h₁ : idx < self₁.votes.length)
    (h₂ : idx < self₂.votes.length) :
    FlagsAgree V P vals ⟨self₁.votes.set idx { self₁.votes[idx] with verified := true }⟩
      ⟨self₂.votes.set idx { self₂.votes[idx] with verified := true }⟩ := by
  refine ⟨?_, fun i hi₁ hi₂ hne => ?_⟩
  · simp only [List.map_set, h.1, h.signedVote_eq h₁ h₂]
  · by_cases hi : idx = i
    · subst hi
      simp at hne
    · simp only [List.length_set] at hi₁ hi₂
      simp only [List.getElem_set_ne hi] at hne ⊢
      exact h.2 i hi₁ hi₂ hne

end FlagsAgree

/-- `has_voted` on two collections in agreement for the validators left: the same answer, or the
same error, and collections in agreement for the validators after this one. -/
theorem hasVoted_runRel {V : Signature.Verifier} {P : Prost} {vals : List Validator.Info}
    {self₁ self₂ : NonAbsentCommitVotes} {w : Validator.Info}
    (h : FlagsAgree V P (w :: vals) self₁ self₂) :
    RunRel (fun p₁ p₂ => p₁.1 = p₂.1 ∧ FlagsAgree V P vals p₁.2 p₂.2)
      (self₁.hasVoted V P w).run (self₂.hasVoted V P w).run := by
  rw [hasVoted_run, hasVoted_run, Slice.binarySearchByKey_congr _ h.validatorIds_eq]
  split
  · exact .ok ⟨rfl, h.mono (List.subset_cons_self _ _)⟩
  · next idx hs =>
    obtain ⟨hi, hkey⟩ := Slice.binarySearchByKey_ok hs
    have hi₁ : idx < self₁.votes.length := h.length_eq ▸ hi
    rw [List.getElem?_eq_getElem hi₁, List.getElem?_eq_getElem hi]
    dsimp only
    have hsv := h.signedVote_eq hi₁ hi
    -- a flag up on one side only is a signature this validator accepts
    have hcond : (self₁.votes[idx].verified ||
          V.verify w.pubKey (self₁.votes[idx].signedVote.signBytes P)
            self₁.votes[idx].signedVote.signature) =
        (self₂.votes[idx].verified ||
          V.verify w.pubKey (self₂.votes[idx].signedVote.signBytes P)
            self₂.votes[idx].signedVote.signature) := by
      by_cases hne : self₁.votes[idx].verified = self₂.votes[idx].verified
      · rw [hne, hsv]
      · have hkey₁ : w.address = self₁.votes[idx].validatorId := by
          rw [← hkey]
          exact congrArg SignedVote.validatorId hsv.symm
        have hv := h.2 idx hi₁ hi hne w List.mem_cons_self hkey₁
        rw [hv, ← hsv, hv, Bool.or_true, Bool.or_true]
    rw [hcond]
    split
    · exact .ok ⟨rfl, (h.mono (List.subset_cons_self _ _)).set hi₁ hi⟩
    · rw [hsv]
      exact .error _

end NonAbsentCommitVotes

/-! ## The walk over the validator set -/

/-- Adding a power to a tally adds it to the tallied power and keeps the total and the threshold. -/
theorem VotingPowerTally.tally_eq_some {t t' : VotingPowerTally} {p : UInt64}
    (h : t.tally p = some t') :
    t'.tallied.toNat = t.tallied.toNat + p.toNat ∧ t'.total = t.total ∧
      t'.trustThreshold = t.trustThreshold := by
  simp only [VotingPowerTally.tally, Option.bind_eq_bind, Option.bind_eq_some_iff,
    Option.pure_def, Option.some.injEq] at h
  obtain ⟨s, hs, -, -, rfl⟩ := h
  exact ⟨(checkedAdd_eq_some.mp hs).2, rfl, rfl⟩

/-- What one returning step of the walk did: a validator without a vote is passed over; the vote
of a validator not seen before is tallied, and the walk stops there once the tally passes the
threshold. -/
theorem votingPowerInLoop_cons_run_eq_ok {V : Signature.Verifier} {P : Prost}
    {w : Validator.Info} {rest power seen votes result}
    (h : (votingPowerInLoop V P (w :: rest) power seen votes).run = some (.ok result)) :
    ∃ r votes', (votes.hasVoted V P w).run = some (.ok (r, votes')) ∧
      ((r = none ∧ (votingPowerInLoop V P rest power seen votes').run = some (.ok result)) ∨
        ∃ idx power', r = some idx ∧ ¬ seen.contains idx = true ∧
          power.tally w.power.toU64 = some power' ∧
          ((power'.check = some (.ok ()) ∧ result = (power', votes')) ∨
            ∃ t, power'.check = some (.error t) ∧
              (votingPowerInLoop V P rest power' (seen ++ [idx]) votes').run =
                some (.ok result))) := by
  unfold votingPowerInLoop at h
  obtain ⟨⟨r, votes'⟩, hv, h⟩ := run_bind_eq_ok.mp h
  refine ⟨r, votes', hv, ?_⟩
  cases r with
  | none => exact .inl ⟨rfl, h⟩
  | some idx =>
    dsimp only at h
    by_cases hc : seen.contains idx = true
    · rw [if_pos hc, ExceptT.bind_throw] at h
      cases h
    rw [if_neg hc] at h
    obtain ⟨power', ht, h⟩ := run_bind_eq_ok.mp h
    obtain ⟨checked, hchk, h⟩ := run_bind_eq_ok.mp h
    refine .inr ⟨idx, power', rfl, hc, run_lift_eq_ok.mp ht, ?_⟩
    cases checked with
    | ok =>
      -- the early exit
      simp only [ExceptT.run_pure, Option.pure_def, Option.some.injEq, Except.ok.injEq] at h
      exact .inl ⟨run_lift_eq_ok.mp hchk, h.symm⟩
    | error t => exact .inr ⟨t, run_lift_eq_ok.mp hchk, h⟩

/-- A property of the tally and the collection that every returning `has_voted` and every tally
step of a validator of `vals` keeps is kept by the walk over any of those validators. -/
theorem votingPowerInLoop_preserves {V : Signature.Verifier} {P : Prost}
    (Q : VotingPowerTally → NonAbsentCommitVotes → Prop) {vals : List Validator.Info}
    (hvote : ∀ w ∈ vals, ∀ {power self self' r}, Q power self →
      (self.hasVoted V P w).run = some (.ok (r, self')) → Q power self')
    (htally : ∀ w ∈ vals, ∀ {power power' self}, Q power self →
      power.tally w.power.toU64 = some power' → Q power' self) :
    ∀ {rest : List Validator.Info} {power seen self result}, rest ⊆ vals → Q power self →
      (votingPowerInLoop V P rest power seen self).run = some (.ok result) → Q result.1 result.2
  | [], _, _, _, _, _, hQ, h => by
    simp only [votingPowerInLoop, ExceptT.run_pure, Option.pure_def, Option.some.injEq,
      Except.ok.injEq] at h
    rw [← h]
    exact hQ
  | w :: rest, power, seen, self, result, hsub, hQ, h => by
    have hw : w ∈ vals := hsub List.mem_cons_self
    have hrest : rest ⊆ vals := fun x hx => hsub (List.mem_cons_of_mem _ hx)
    obtain ⟨r, self', hv, ⟨-, hk⟩ | ⟨idx, power', -, -, ht, ⟨-, rfl⟩ | ⟨t, -, hk⟩⟩⟩ :=
      votingPowerInLoop_cons_run_eq_ok h
    · exact votingPowerInLoop_preserves Q hvote htally hrest (hvote w hw hQ hv) hk
    · exact htally w hw (hvote w hw hQ hv) ht
    · exact votingPowerInLoop_preserves Q hvote htally hrest (htally w hw (hvote w hw hQ hv) ht) hk

/-- A validator credited with the vote at index `c.2` of the sorted signed votes `W`: the vote
carries the validator's address and its signature verifies under the validator's key. -/
def Credited (V : Signature.Verifier) (P : Prost) (W : List SignedVote)
    (c : Validator.Info × Nat) : Prop :=
  ∃ h : c.2 < W.length, W[c.2].validatorAddress = c.1.address ∧
    V.verify c.1.pubKey (W[c.2].signBytes P) W[c.2].signature = true

/-- The invariant of the walk of `voting_power_in_impl` over the signed votes `W`: a flag is up
exactly on the votes in `seen_vals`, each of them credited once, and the tally is the power of the
credited validators. -/
structure TallyInv (V : Signature.Verifier) (P : Prost) (W : List SignedVote)
    (power : VotingPowerTally) (seen : List Nat) (votes : NonAbsentCommitVotes)
    (cred : List (Validator.Info × Nat)) : Prop where
  signed : votes.votes.map (·.signedVote) = W
  flag : ∀ i (hi : i < votes.votes.length), votes.votes[i].verified = true ↔ i ∈ seen
  seen_eq : cred.map Prod.snd = seen
  nodup : seen.Nodup
  tallied : power.tallied.toNat = (cred.map fun c => c.1.power.value).sum
  credited : ∀ c ∈ cred, Credited V P W c

/-- The walk starts from a fresh collection, with no flag up and nothing tallied. -/
theorem TallyInv.new {V : Signature.Verifier} {P : Prost} {sh : SignedHeader}
    {votes : NonAbsentCommitVotes} (hnew : (NonAbsentCommitVotes.new sh).run = some (.ok votes))
    (total : UInt64) (tt : TrustThresholdFraction) :
    TallyInv V P (votes.votes.map (·.signedVote)) (.new total tt) [] votes [] := by
  have hdown := NonAbsentCommitVotes.new_flags_down hnew
  exact ⟨rfl, fun i hi => by simp [hdown _ (List.getElem_mem hi)], rfl, .nil, rfl, by simp⟩

/-- One credited validator: a vote found with its flag down, whose signature the validator's key
accepts, is added to `seen_vals` and its power to the tally. -/
theorem TallyInv.step {V : Signature.Verifier} {P : Prost} {W power seen votes cred}
    {w : Validator.Info} {idx : Nat} {votes' : NonAbsentCommitVotes} {power' : VotingPowerTally}
    (inv : TallyInv V P W power seen votes cred)
    (hv : (votes.hasVoted V P w).run = some (.ok (some idx, votes')))
    (hc : ¬ seen.contains idx = true) (ht : power.tally w.power.toU64 = some power') :
    TallyInv V P W power' (seen ++ [idx]) votes' (cred ++ [(w, idx)]) := by
  have hsv := NonAbsentCommitVotes.hasVoted_signedVotes hv
  rcases NonAbsentCommitVotes.hasVoted_run_eq_ok hv with ⟨h, -⟩ | ⟨idx', hidx, hi, hkey, hset, hcheck⟩
  · cases h
  cases hidx
  have hseen : idx ∉ seen := by simpa using hc
  have hdown : votes.votes[idx].verified = false := by
    cases hf : votes.votes[idx].verified
    · rfl
    · exact absurd ((inv.flag idx hi).mp hf) hseen
  have hWi (h : idx < W.length) : W[idx] = votes.votes[idx].signedVote := by
    simp [← inv.signed]
  refine ⟨hsv.trans inv.signed, fun i hi' => ?_, by simp [inv.seen_eq], ?_, ?_, ?_⟩
  · have hlen : i < votes.votes.length := by simpa [hset] using hi'
    simp only [hset]
    by_cases hidx : idx = i
    · subst hidx
      simp
    · simp only [List.getElem_set_ne hidx, List.mem_append, List.mem_singleton, inv.flag i hlen]
      exact ⟨.inl, fun h => h.resolve_right (Ne.symm hidx)⟩
  · refine List.nodup_append.mpr ⟨inv.nodup, List.nodup_cons.mpr ⟨List.not_mem_nil, .nil⟩, ?_⟩
    intro a ha b hb
    rw [List.mem_singleton.mp hb]
    exact fun e => hseen (e ▸ ha)
  · simp [(VotingPowerTally.tally_eq_some ht).1, inv.tallied]
  · intro c hc'
    rcases List.mem_append.mp hc' with hc' | hc'
    · exact inv.credited c hc'
    · obtain rfl := List.mem_singleton.mp hc'
      have hW : idx < W.length := by simpa [← inv.signed] using hi
      refine ⟨hW, ?_, ?_⟩
      · rw [hWi]; exact hkey
      · rw [hWi]; exact hcheck hdown

/-- The walk keeps the invariant and credits a sublist of the validators it walks over. -/
theorem votingPowerInLoop_sound {V : Signature.Verifier} {P : Prost} {W : List SignedVote} :
    ∀ {rest : List Validator.Info} {power seen votes cred result},
      TallyInv V P W power seen votes cred →
      (votingPowerInLoop V P rest power seen votes).run = some (.ok result) →
      ∃ new seen', (new.map Prod.fst).Sublist rest ∧
        TallyInv V P W result.1 seen' result.2 (cred ++ new)
  | [], power, seen, votes, cred, result, inv, h => by
    simp only [votingPowerInLoop, ExceptT.run_pure, Option.pure_def, Option.some.injEq,
      Except.ok.injEq] at h
    subst h
    exact ⟨[], seen, .slnil, by simpa using inv⟩
  | w :: rest, power, seen, votes, cred, result, inv, h => by
    obtain ⟨r, votes', hv, ⟨rfl, hk⟩ | ⟨idx, power', rfl, hc, ht, ⟨-, rfl⟩ | ⟨t, -, hk⟩⟩⟩ :=
      votingPowerInLoop_cons_run_eq_ok h
    · -- no vote of this validator: nothing changes
      obtain rfl := NonAbsentCommitVotes.hasVoted_run_eq_ok_none hv
      obtain ⟨new, seen', hsub, inv'⟩ := votingPowerInLoop_sound inv hk
      exact ⟨new, seen', hsub.cons w, inv'⟩
    · -- the early exit
      exact ⟨[(w, idx)], seen ++ [idx], List.nil_sublist _ |>.cons_cons w, inv.step hv hc ht⟩
    · obtain ⟨new, seen', hsub, inv'⟩ := votingPowerInLoop_sound (inv.step hv hc ht) hk
      exact ⟨(w, idx) :: new, seen', hsub.cons_cons w, by simpa using inv'⟩

/-- A walk over votes sorted by address that does not stop early credits every validator whose
address has a vote. -/
theorem votingPowerInLoop_complete {V : Signature.Verifier} {P : Prost} {W : List SignedVote}
    (hW : W.Pairwise (fun a b => a.validatorAddress < b.validatorAddress)) :
    ∀ {rest : List Validator.Info} {power seen votes cred result},
      TallyInv V P W power seen votes cred →
      (votingPowerInLoop V P rest power seen votes).run = some (.ok result) →
      result.1.check ≠ some (.ok ()) →
      ∃ new seen', new.map Prod.fst = rest.filter (fun w => w.address ∈ W.map (·.validatorAddress)) ∧
        TallyInv V P W result.1 seen' result.2 (cred ++ new)
  | [], power, seen, votes, cred, result, inv, h, _ => by
    simp only [votingPowerInLoop, ExceptT.run_pure, Option.pure_def, Option.some.injEq,
      Except.ok.injEq] at h
    subst h
    exact ⟨[], seen, rfl, by simpa using inv⟩
  | w :: rest, power, seen, votes, cred, result, inv, h, hchk => by
    -- the votes keep their order, so `has_voted` finds exactly the addresses of `W`
    have hs : votes.votes.Pairwise (fun a b => a.validatorId < b.validatorId) := by
      rw [← inv.signed] at hW
      simpa [List.pairwise_map] using hW
    have haddr : votes.votes.map NonAbsentCommitVote.validatorId = W.map (·.validatorAddress) := by
      rw [← inv.signed, List.map_map]
      rfl
    obtain ⟨r, votes', hv, ⟨rfl, hk⟩ | ⟨idx, power', rfl, hc, ht, ⟨hok, rfl⟩ | ⟨t, -, hk⟩⟩⟩ :=
      votingPowerInLoop_cons_run_eq_ok h
    · -- no vote of this validator: it is not in the filter
      have hnot := (NonAbsentCommitVotes.hasVoted_eq_none_iff hs hv).mp rfl
      obtain rfl := NonAbsentCommitVotes.hasVoted_run_eq_ok_none hv
      obtain ⟨new, seen', hnew, inv'⟩ := votingPowerInLoop_complete hW inv hk hchk
      refine ⟨new, seen', ?_, inv'⟩
      rw [← haddr] at hnew ⊢
      rw [List.filter_cons_of_neg (by simpa using hnot), hnew]
    · -- the early exit passes the threshold
      exact absurd hok hchk
    · have hin : w.address ∈ votes.votes.map NonAbsentCommitVote.validatorId := by
        by_contra hnot
        cases (NonAbsentCommitVotes.hasVoted_eq_none_iff hs hv).mpr hnot
      obtain ⟨new, seen', hnew, inv'⟩ := votingPowerInLoop_complete hW (inv.step hv hc ht) hk hchk
      refine ⟨(w, idx) :: new, seen', ?_, by simpa using inv'⟩
      rw [← haddr] at hnew ⊢
      rw [List.map_cons, List.filter_cons_of_pos (by simpa using hin), hnew]

/-- The errors of the tally's loop are errors of the tally. -/
theorem votingPowerInLoop_run_eq_error {V : Signature.Verifier} {P : Prost} :
    ∀ {rest : List Validator.Info} {power seen votes e},
      (votingPowerInLoop V P rest power seen votes).run = some (.error e) → TallyError e
  | [], _, _, _, _, h => by simp [votingPowerInLoop] at h
  | w :: rest, power, seen, votes, e, h => by
    unfold votingPowerInLoop at h
    rcases run_bind_eq_error.mp h with hv | ⟨⟨r, votes'⟩, -, h⟩
    · exact NonAbsentCommitVotes.hasVoted_run_eq_error hv
    cases r with
    | none => exact votingPowerInLoop_run_eq_error h
    | some idx =>
      dsimp only at h
      by_cases hc : seen.contains idx = true
      · rw [if_pos hc, ExceptT.bind_throw] at h
        cases h
        exact .duplicateValidator _
      rw [if_neg hc] at h
      -- the tally and the check only panic; the walk goes on after a failed check
      rcases run_bind_eq_error.mp h with h | ⟨power', -, h⟩
      · simp at h
      rcases run_bind_eq_error.mp h with h | ⟨checked, -, h⟩
      · simp at h
      cases checked with
      | ok => cases h
      | error => exact votingPowerInLoop_run_eq_error h

/-- The tally's loop returns the same tally from votes that agree but for their flags. -/
theorem votingPowerInLoop_runRel {V : Signature.Verifier} {P : Prost} :
    ∀ {vals : List Validator.Info} {power : VotingPowerTally} {seen : List Nat}
      {self₁ self₂ : NonAbsentCommitVotes},
      NonAbsentCommitVotes.FlagsAgree V P vals self₁ self₂ →
      RunRel (fun r₁ r₂ => r₁.1 = r₂.1) (votingPowerInLoop V P vals power seen self₁).run
        (votingPowerInLoop V P vals power seen self₂).run
  | [], _, _, _, _, _ => .ok rfl
  | w :: rest, power, seen, self₁, self₂, h => by
    unfold votingPowerInLoop
    refine RunRel.bind (NonAbsentCommitVotes.hasVoted_runRel h) ?_
    rintro ⟨r, s₁⟩ ⟨_, s₂⟩ ⟨rfl, hs⟩
    cases r with
    | none => exact votingPowerInLoop_runRel hs
    | some idx =>
      dsimp only
      by_cases hc : seen.contains idx = true
      · rw [if_pos hc, if_pos hc, ExceptT.bind_throw, ExceptT.bind_throw]
        exact .error _
      · rw [if_neg hc, if_neg hc]
        refine RunRel.bind_same fun _ => RunRel.bind_same fun checked => ?_
        cases checked with
        | ok => exact .ok rfl
        | error => exact votingPowerInLoop_runRel hs

/-! ## `voting_power_in` -/

/-- A tally that `voting_power_in` returns is that of the walk over the set, from a fresh tally of
the set's total, over the votes of the commit. -/
theorem votingPowerIn_run_eq_ok {V : Signature.Verifier} {P : Prost} {sh : SignedHeader}
    {vals : Validator.Set} {tt : TrustThresholdFraction} {tally : VotingPowerTally}
    (h : (votingPowerIn V P sh vals tt).run = some (.ok tally)) :
    ∃ votes₀ total votes, (NonAbsentCommitVotes.new sh).run = some (.ok votes₀) ∧
      totalPowerOf vals = some total ∧
      (votingPowerInLoop V P vals.validators (.new total tt) [] votes₀).run =
        some (.ok (tally, votes)) := by
  unfold votingPowerIn at h
  obtain ⟨votes₀, hnew, h⟩ := run_bind_eq_ok.mp h
  obtain ⟨total, htotal, h⟩ := run_bind_eq_ok.mp h
  obtain ⟨⟨power, votes⟩, hloop, h⟩ := run_bind_eq_ok.mp h
  simp only [ExceptT.run_pure, Option.pure_def, Option.some.injEq, Except.ok.injEq] at h
  subst h
  exact ⟨votes₀, total, votes, hnew, run_lift_eq_ok.mp htotal, hloop⟩

/-- The entry at index `j` of the commit is a commit vote of `v`'s address with a signature that
`v`'s key accepts over the entry's sign bytes. -/
def SignsAt (V : Signature.Verifier) (P : Prost) (sh : SignedHeader) (v : Validator.Info)
    (j : Nat) : Prop :=
  ∃ ts s, sh.commit.signatures[j]? = some (CommitSig.blockIdFlagCommit v.address ts (some s)) ∧
    V.verify v.pubKey (commitVoteSignBytes P sh ts) s = true

/-- `p` is the power of validators of `vals`, each credited with a commit entry of its own that it
signs. -/
def SignedPower (V : Signature.Verifier) (P : Prost) (sh : SignedHeader)
    (vals : List Validator.Info) (p : Nat) : Prop :=
  ∃ credited : List (Validator.Info × Nat),
    (credited.map Prod.fst).Sublist vals ∧ (credited.map Prod.snd).Nodup ∧
    p = (credited.map fun c => c.1.power.value).sum ∧ ∀ c ∈ credited, SignsAt V P sh c.1 c.2

/-- A returned tally is the power of a sublist of the validators, each credited with a signed commit
entry of its own, whose signature verifies under the validator's key. -/
theorem votingPowerIn_sound {V : Signature.Verifier} {P : Prost} {sh : SignedHeader}
    {vals : Validator.Set} {tt : TrustThresholdFraction} {tally : VotingPowerTally}
    (h : (votingPowerIn V P sh vals tt).run = some (.ok tally)) :
    SignedPower V P sh vals.validators tally.tallied.toNat := by
  obtain ⟨votes₀, total, votes, hnew, -, hloop⟩ := votingPowerIn_run_eq_ok h
  set W := votes₀.votes.map (·.signedVote) with hW
  obtain ⟨cred, seen, hsub, inv⟩ := votingPowerInLoop_sound (TallyInv.new (V := V) (P := P) hnew total tt) hloop
  simp only [List.nil_append] at hsub inv
  -- the commit entry each vote of `W` was made from
  have horig : ∀ i, ∃ j : Nat, ∀ hi : i < W.length, ∃ ts,
      sh.commit.signatures[j]? = some (CommitSig.blockIdFlagCommit W[i].validatorAddress ts
        (some W[i].signature)) ∧ W[i].vote = precommit sh.commit sh.header.chainId ts := by
    intro i
    by_cases hi : i < W.length
    · have hi₀ : i < votes₀.votes.length := by simpa [hW] using hi
      obtain ⟨j, ts, hj, hvote⟩ :=
        NonAbsentCommitVotes.new_origin hnew (List.getElem_mem hi₀)
      exact ⟨j, fun _ => ⟨ts, by simpa [hW] using hj, by simpa [hW] using hvote⟩⟩
    · exact ⟨0, fun h => absurd h hi⟩
  choose origin horigin using horig
  have hWnodup : W.Nodup := by
    have hsorted := (NonAbsentCommitVotes.new_run_eq_ok hnew).2.1
    have := NonAbsentCommitVotes.nodup_validatorId_of_pairwise hsorted
    rw [hW]
    refine List.Nodup.of_map SignedVote.validatorAddress ?_
    rw [List.map_map]
    exact this
  have hfst : (cred.map fun c => (c.1, origin c.2)).map Prod.fst = cred.map Prod.fst := by
    simp [List.map_map, Function.comp_def]
  have hsnd : (cred.map fun c => (c.1, origin c.2)).map Prod.snd = (cred.map Prod.snd).map origin := by
    simp [List.map_map, Function.comp_def]
  refine ⟨cred.map fun c => (c.1, origin c.2), hfst ▸ hsub, ?_, ?_, ?_⟩
  · -- two credited votes with one origin are one vote
    have hnd : (cred.map Prod.snd).Nodup := inv.seen_eq ▸ inv.nodup
    rw [hsnd]
    refine hnd.map_on fun x hx y hy hxy => ?_
    obtain ⟨cx, hcx, rfl⟩ := List.mem_map.mp hx
    obtain ⟨cy, hcy, rfl⟩ := List.mem_map.mp hy
    obtain ⟨hix, -⟩ := inv.credited cx hcx
    obtain ⟨hiy, -⟩ := inv.credited cy hcy
    obtain ⟨tsx, hjx, hvx⟩ := horigin cx.2 hix
    obtain ⟨tsy, hjy, hvy⟩ := horigin cy.2 hiy
    rw [hxy, hjy, Option.some.injEq, CommitSig.blockIdFlagCommit.injEq] at hjx
    obtain ⟨ha, ht, hs⟩ := hjx
    have hsame : W[cx.2] = W[cy.2] :=
      SignedVote.ext (by rw [hvx, hvy, ht]) ha.symm (Option.some.inj hs).symm
    exact (hWnodup.getElem_inj_iff).mp hsame
  · simpa [List.map_map, Function.comp_def] using inv.tallied
  · intro c' hc'
    obtain ⟨c, hc, rfl⟩ := List.mem_map.mp hc'
    obtain ⟨hi, haddr, hver⟩ := inv.credited c hc
    obtain ⟨ts, hj, hvote⟩ := horigin c.2 hi
    refine ⟨ts, W[c.2].signature, by rw [← haddr]; exact hj, ?_⟩
    rw [commitVoteSignBytes, ← hvote]
    exact hver

/-- The total power computed is the sum of the validators' powers. -/
theorem totalPowerOf_eq_some {s : Validator.Set} {total : UInt64}
    (h : totalPowerOf s = some total) :
    total.toNat = (s.validators.map fun v => v.power.value).sum := by
  have hfold := foldlM_checkedAdd_eq_some (fun v : Validator.Info => v.power.toU64) s.validators 0
    total h
  simpa using hfold

/-- On a set that `try_from_parts` built, `total_power_of` does not overflow and returns the total
the set records. -/
theorem totalPowerOf_of_canonical {s : Validator.Set} (hs : s.Canonical) :
    totalPowerOf s = some s.totalVotingPower.toU64 := by
  have hbound : (0 : UInt64).toNat + (s.validators.map fun v => v.power.toU64.toNat).sum < 2 ^ 64 := by
    have := Validator.Set.maxTotalVotingPower_lt
    have := hs.total_le
    simp only [UInt64.toNat_zero, Power.toNat_toU64, Nat.zero_add, ← hs.total_eq]
    omega
  obtain ⟨total, hfold, htotal⟩ := foldlM_checkedAdd (fun v : Validator.Info => v.power.toU64)
    s.validators 0 hbound
  have heq : total = s.totalVotingPower.toU64 := by
    rw [← UInt64.toNat_inj, htotal, Power.toNat_toU64, hs.total_eq]
    simp
  rw [totalPowerOf, hfold, heq]

/-- A returned tally is out of the set's total power, at the threshold it was asked for. -/
theorem votingPowerIn_tally {V : Signature.Verifier} {P : Prost} {sh : SignedHeader}
    {vals : Validator.Set} {tt : TrustThresholdFraction} {tally : VotingPowerTally}
    (h : (votingPowerIn V P sh vals tt).run = some (.ok tally)) :
    tally.total.toNat = (vals.validators.map fun v => v.power.value).sum ∧
      tally.trustThreshold = tt := by
  obtain ⟨votes₀, total, votes, -, htotal, hloop⟩ := votingPowerIn_run_eq_ok h
  -- the walk only ever changes `tallied`
  have hfields := votingPowerInLoop_preserves
    (fun power _ => power.total = total ∧ power.trustThreshold = tt)
    (fun _ _ _ _ _ _ hQ _ => hQ)
    (fun _ _ _ _ _ hQ ht => by
      rw [(VotingPowerTally.tally_eq_some ht).2.1, (VotingPowerTally.tally_eq_some ht).2.2]
      exact hQ)
    (List.Subset.refl _) ⟨rfl, rfl⟩ hloop
  exact ⟨hfields.1 ▸ totalPowerOf_eq_some htotal, hfields.2⟩

/-- A tally that does not pass its threshold counts every validator that signs a commit entry:
no sublist of validators that all sign has more power. -/
theorem votingPowerIn_complete {V : Signature.Verifier} {P : Prost} {sh : SignedHeader}
    {vals : Validator.Set} {tt : TrustThresholdFraction} {tally : VotingPowerTally}
    (h : (votingPowerIn V P sh vals tt).run = some (.ok tally)) (hchk : tally.check ≠ some (.ok ()))
    {S : List Validator.Info} (hS : S.Sublist vals.validators)
    (hsigned : ∀ v ∈ S, ∃ j, SignsAt V P sh v j) :
    (S.map fun v => v.power.value).sum ≤ tally.tallied.toNat := by
  obtain ⟨votes₀, total, votes, hnew, -, hloop⟩ := votingPowerIn_run_eq_ok h
  have hW : (votes₀.votes.map (·.signedVote)).Pairwise
      (fun a b => a.validatorAddress < b.validatorAddress) := by
    simpa [List.pairwise_map] using (NonAbsentCommitVotes.new_run_eq_ok hnew).2.1
  obtain ⟨cred, seen, hcred, inv⟩ :=
    votingPowerInLoop_complete hW (TallyInv.new (V := V) (P := P) hnew total tt) hloop hchk
  -- every validator of `S` signs an entry, so it has a vote and is credited
  have hp : ∀ v ∈ S, v.address ∈ (votes₀.votes.map (·.signedVote)).map (·.validatorAddress) := by
    intro v hv
    obtain ⟨j, ts, s, hj, -⟩ := hsigned v hv
    have := NonAbsentCommitVotes.new_mem_of_signed hnew (List.mem_of_getElem? hj)
    simpa [List.map_map] using this
  have hsub : S.Sublist (vals.validators.filter
      fun w => w.address ∈ (votes₀.votes.map (·.signedVote)).map (·.validatorAddress)) := by
    have := hS.filter (fun w => w.address ∈ (votes₀.votes.map (·.signedVote)).map (·.validatorAddress))
    rwa [List.filter_eq_self.mpr (by simpa using hp)] at this
  calc (S.map fun v => v.power.value).sum
      ≤ ((vals.validators.filter
          fun w => w.address ∈ (votes₀.votes.map (·.signedVote)).map (·.validatorAddress)).map
            fun v => v.power.value).sum := (hsub.map _).sum_le_sum (fun _ _ => Nat.zero_le _)
    _ = tally.tallied.toNat := by
      rw [inv.tallied, ← hcred]
      simp [List.map_map, Function.comp_def]

/-- The errors of `voting_power_in` are errors of the tally. -/
theorem votingPowerIn_run_eq_error {V : Signature.Verifier} {P : Prost} {sh : SignedHeader}
    {vals : Validator.Set} {tt : TrustThresholdFraction} {e : VerificationError}
    (h : (votingPowerIn V P sh vals tt).run = some (.error e)) : TallyError e := by
  unfold votingPowerIn at h
  rcases run_bind_eq_error.mp h with h | ⟨votes₀, -, h⟩
  · exact NonAbsentCommitVotes.new_run_eq_error h
  rcases run_bind_eq_error.mp h with h | ⟨total, -, h⟩
  · simp at h
  rcases run_bind_eq_error.mp h with h | ⟨r, -, h⟩
  · exact votingPowerInLoop_run_eq_error h
  · cases h

/-- `voting_power_in` credits each counted validator with a signed commit entry of its own address
whose signature its key accepts, and no entry twice; a commit with two entries of one address
yields no tally, and yields a duplicate validator once every entry is signed and indexable. -/
theorem votingPowerIn_counts_each_signature_once (V : Signature.Verifier) (P : Prost)
    (sh : SignedHeader) (vals : Validator.Set) (tt : TrustThresholdFraction) :
    (∀ tally, (votingPowerIn V P sh vals tt).run = some (.ok tally) →
      ∃ credited : List (Validator.Info × Nat),
        (credited.map Prod.fst).Sublist vals.validators ∧
        (credited.map Prod.snd).Nodup ∧
        tally.tallied.toNat = (credited.map fun c => c.1.power.value).sum ∧
        ∀ c ∈ credited, ∃ ts s,
          sh.commit.signatures[c.2]? = some (CommitSig.blockIdFlagCommit c.1.address ts (some s)) ∧
          V.verify c.1.pubKey (commitVoteSignBytes P sh ts) s = true) ∧
    ∀ a ts₁ s₁ ts₂ s₂,
      [CommitSig.blockIdFlagCommit a ts₁ s₁, .blockIdFlagCommit a ts₂ s₂].Sublist
        sh.commit.signatures →
      (∀ tally, (votingPowerIn V P sh vals tt).run ≠ some (.ok tally)) ∧
      ((∀ a ts, CommitSig.blockIdFlagCommit a ts none ∉ sh.commit.signatures) →
        sh.commit.signatures.length ≤ 2 ^ 31 →
        ∃ a', (votingPowerIn V P sh vals tt).run = some (.error (.duplicateValidator a'))) := by
  refine ⟨fun _ h => votingPowerIn_sound h, fun a ts₁ s₁ ts₂ s₂ hdup => ⟨fun tally h => ?_, ?_⟩⟩
  · obtain ⟨votes, -, -, hnew, -⟩ := votingPowerIn_run_eq_ok h
    exact NonAbsentCommitVotes.new_run_ne_ok_of_duplicate hdup votes hnew
  · intro hsigned hlen
    -- both entries are signed, or the commit would have an unsigned entry
    rcases s₁ with _ | s₁
    · exact absurd (hdup.subset List.mem_cons_self) (hsigned a ts₁)
    rcases s₂ with _ | s₂
    · exact absurd (hdup.subset (by simp)) (hsigned a ts₂)
    obtain ⟨a', ha'⟩ := NonAbsentCommitVotes.new_run_of_duplicate hdup hsigned hlen
    exact ⟨a', run_bind_of_error ha'⟩

/-- Two entries of one address without a signature are reported as a missing signature, not as a
duplicate validator. -/
theorem votingPowerIn_unsigned_duplicate_is_missing_signature :
    ∃ sh : SignedHeader, (∃ a ts, [CommitSig.blockIdFlagCommit a ts none,
        .blockIdFlagCommit a ts none].Sublist sh.commit.signatures) ∧
      ∀ V P vals tt, (votingPowerIn V P sh vals tt).run = some (.error .missingSignature) :=
  ⟨⟨Header.ofHashes ⟨1, by decide⟩ .unixEpoch .none .none,
      ⟨⟨1, by decide⟩, ⟨0, by decide⟩, default,
        [.blockIdFlagCommit ⟨List.Vector.replicate 20 0⟩ .unixEpoch none,
         .blockIdFlagCommit ⟨List.Vector.replicate 20 0⟩ .unixEpoch none]⟩⟩,
    ⟨_, _, List.Sublist.refl _⟩, fun _ _ _ _ => rfl⟩

/-! ## `voting_power_in_sets` -/

/-- After the walk over `A`, a flag differs from the fresh collection's only on a vote whose
signature every validator of `B` with the vote's address accepts, when validators of `A` and `B`
with one address have one key. -/
theorem flagsAgree_of_walk {V : Signature.Verifier} {P : Prost} {sh : SignedHeader}
    {A B : Validator.Set} {ta : TrustThresholdFraction} {total : UInt64}
    {votes₀ : NonAbsentCommitVotes} {r₁ : VotingPowerTally × NonAbsentCommitVotes}
    (hnew : (NonAbsentCommitVotes.new sh).run = some (.ok votes₀))
    (hA : (votingPowerInImpl V P votes₀ A ta total).run = some (.ok r₁))
    (hkeys : ∀ a ∈ A.validators, ∀ b ∈ B.validators, a.address = b.address → a.pubKey = b.pubKey) :
    NonAbsentCommitVotes.FlagsAgree V P B.validators r₁.2 votes₀ := by
  have hsv : r₁.2.votes.map (·.signedVote) = votes₀.votes.map (·.signedVote) :=
    votingPowerInLoop_preserves
      (fun _ s => s.votes.map (·.signedVote) = votes₀.votes.map (·.signedVote))
      (fun _ _ _ _ _ _ hQ hv => (NonAbsentCommitVotes.hasVoted_signedVotes hv).trans hQ)
      (fun _ _ _ _ _ hQ _ => hQ) (List.Subset.refl _) rfl hA
  have hdown := NonAbsentCommitVotes.new_flags_down hnew
  -- every flag the first walk raised was raised by a validator of `A` whose key accepts the vote
  have hwit : NonAbsentCommitVotes.FlagsWitnessed V P A.validators r₁.2 :=
    votingPowerInLoop_preserves (fun _ s => NonAbsentCommitVotes.FlagsWitnessed V P A.validators s)
      (fun _ hw _ _ _ _ hQ hv => NonAbsentCommitVotes.hasVoted_flagsWitnessed hw hQ hv)
      (fun _ _ _ _ _ hQ _ => hQ) (List.Subset.refl _)
      (fun i hi hf => absurd hf (by simp [hdown _ (List.getElem_mem hi)])) hA
  refine ⟨hsv, fun i h₁ h₂ hne w hw hwa => ?_⟩
  have hf₁ : r₁.2.votes[i].verified = true := by
    simpa [hdown _ (List.getElem_mem h₂)] using hne
  obtain ⟨u, hu, hua, hver⟩ := hwit i h₁ hf₁
  rw [← hkeys u hu w hw (hua.trans hwa.symm)]
  exact hver

/-- Tallying two sets over one cache of verified votes gives the two separate tallies, when
validators of one address carry one key. -/
theorem votingPowerInSets_eq_separate (V : Signature.Verifier) (P : Prost) (sh : SignedHeader)
    (A B : Validator.Set) (ta tb : TrustThresholdFraction)
    (hkeys : ∀ a ∈ A.validators, ∀ b ∈ B.validators, a.address = b.address → a.pubKey = b.pubKey) :
    votingPowerInSets V P sh (A, ta) (B, tb) =
      (do
        let t₁ ← votingPowerIn V P sh A ta
        let t₂ ← votingPowerIn V P sh B tb
        pure (t₁, t₂)) := by
  apply ExceptT.ext
  apply RunRel.eq
  unfold votingPowerInSets votingPowerIn
  simp only [bind_assoc]
  refine RunRel.bind_left fun votes₀ hnew => ?_
  refine RunRel.bind_same fun totalA => ?_
  refine RunRel.bind_left fun r₁ hA => ?_
  simp only [pure_bind]
  rw [run_bind_of_ok hnew]
  -- the second walk starts from the flags the first one left, and ends as a fresh one
  refine RunRel.bind_same fun totalB =>
    RunRel.bind (S := fun p q => p.1 = q.1)
      (votingPowerInLoop_runRel (flagsAgree_of_walk hnew hA hkeys)) fun p q hpq => ?_
  rw [hpq]
  exact .ok rfl

/-- One validator walked twice: the shared collection gives the two separate tallies. -/
theorem votingPowerInSets_eq_separate_one_validator :
    votingPowerInSets .acceptAll .empty
        ⟨Header.ofHashes ⟨1, by decide⟩ .unixEpoch .none .none, ⟨⟨1, by decide⟩, ⟨0, by decide⟩,
          default, [.blockIdFlagCommit ⟨List.Vector.replicate 20 0⟩ .unixEpoch
            (some ⟨List.Vector.replicate 64 0⟩)]⟩⟩
        (⟨[⟨⟨List.Vector.replicate 20 0⟩, .ed25519 (List.Vector.replicate 32 0), ⟨1, by decide⟩,
          none, 0⟩], none, ⟨1, by decide⟩⟩, .oneThird)
        (⟨[⟨⟨List.Vector.replicate 20 0⟩, .ed25519 (List.Vector.replicate 32 0), ⟨1, by decide⟩,
          none, 0⟩], none, ⟨1, by decide⟩⟩, .twoThirds) =
      (do
        let t₁ ← votingPowerIn .acceptAll .empty
          ⟨Header.ofHashes ⟨1, by decide⟩ .unixEpoch .none .none, ⟨⟨1, by decide⟩, ⟨0, by decide⟩,
            default, [.blockIdFlagCommit ⟨List.Vector.replicate 20 0⟩ .unixEpoch
              (some ⟨List.Vector.replicate 64 0⟩)]⟩⟩
          ⟨[⟨⟨List.Vector.replicate 20 0⟩, .ed25519 (List.Vector.replicate 32 0), ⟨1, by decide⟩,
            none, 0⟩], none, ⟨1, by decide⟩⟩ .oneThird
        let t₂ ← votingPowerIn .acceptAll .empty
          ⟨Header.ofHashes ⟨1, by decide⟩ .unixEpoch .none .none, ⟨⟨1, by decide⟩, ⟨0, by decide⟩,
            default, [.blockIdFlagCommit ⟨List.Vector.replicate 20 0⟩ .unixEpoch
              (some ⟨List.Vector.replicate 64 0⟩)]⟩⟩
          ⟨[⟨⟨List.Vector.replicate 20 0⟩, .ed25519 (List.Vector.replicate 32 0), ⟨1, by decide⟩,
            none, 0⟩], none, ⟨1, by decide⟩⟩ .twoThirds
        pure (t₁, t₂)) :=
  votingPowerInSets_eq_separate _ _ _ _ _ _ _ (by simp)

/-- The two tallies that `voting_power_in_sets` returns are those of two walks: over the first set
from the votes of the commit, and over the second from the votes the first walk leaves. -/
theorem votingPowerInSets_walks {V : Signature.Verifier} {P : Prost} {sh : SignedHeader}
    {A B : Validator.Set} {ta tb : TrustThresholdFraction} {t₁ t₂ : VotingPowerTally}
    (h : (votingPowerInSets V P sh (A, ta) (B, tb)).run = some (.ok (t₁, t₂))) :
    ∃ votes₀ totalA votes₁ totalB votes₂, (NonAbsentCommitVotes.new sh).run = some (.ok votes₀) ∧
      totalPowerOf A = some totalA ∧
      (votingPowerInImpl V P votes₀ A ta totalA).run = some (.ok (t₁, votes₁)) ∧
      totalPowerOf B = some totalB ∧
      (votingPowerInImpl V P votes₁ B tb totalB).run = some (.ok (t₂, votes₂)) := by
  unfold votingPowerInSets at h
  obtain ⟨votes₀, hnew, h⟩ := run_bind_eq_ok.mp h
  obtain ⟨totalA, htA, h⟩ := run_bind_eq_ok.mp h
  obtain ⟨⟨t₁', votes₁⟩, hA, h⟩ := run_bind_eq_ok.mp h
  obtain ⟨totalB, htB, h⟩ := run_bind_eq_ok.mp h
  obtain ⟨⟨t₂', votes₂⟩, hB, h⟩ := run_bind_eq_ok.mp h
  simp only [ExceptT.run_pure, Option.pure_def, Option.some.injEq, Except.ok.injEq,
    Prod.mk.injEq] at h
  obtain ⟨rfl, rfl⟩ := h
  exact ⟨votes₀, totalA, votes₁, totalB, votes₂, hnew, run_lift_eq_ok.mp htA, hA,
    run_lift_eq_ok.mp htB, hB⟩

/-- The shared walk returns the first set's tally of `voting_power_in`, and, under the address/key
precondition, the second set's too. -/
theorem votingPowerInSets_run_eq_ok {V : Signature.Verifier} {P : Prost} {sh : SignedHeader}
    {A B : Validator.Set} {ta tb : TrustThresholdFraction} {t₁ t₂ : VotingPowerTally}
    (h : (votingPowerInSets V P sh (A, ta) (B, tb)).run = some (.ok (t₁, t₂))) :
    (votingPowerIn V P sh A ta).run = some (.ok t₁) ∧
      ((∀ a ∈ A.validators, ∀ b ∈ B.validators, a.address = b.address → a.pubKey = b.pubKey) →
        (votingPowerIn V P sh B tb).run = some (.ok t₂)) := by
  obtain ⟨votes₀, totalA, votes₁, totalB, votes₂, hnew, htA, hA, htB, hB⟩ :=
    votingPowerInSets_walks h
  refine ⟨?_, fun hkeys => ?_⟩
  · unfold votingPowerIn
    rw [run_bind_of_ok hnew, run_bind_of_ok (run_lift_eq_ok.mpr htA), run_bind_of_ok hA]
    rfl
  · -- the fresh walk over `B` ends as the walk that inherited the flags
    have hrel : RunRel (fun r₁ r₂ => r₁.1 = r₂.1)
        (votingPowerInImpl V P votes₁ B tb totalB).run
        (votingPowerInImpl V P votes₀ B tb totalB).run :=
      votingPowerInLoop_runRel (flagsAgree_of_walk hnew hA hkeys)
    obtain ⟨⟨t, votes⟩, hfresh, hr⟩ := RunRel.of_ok_left (hB ▸ hrel)
    have ht : t = t₂ := hr.symm
    subst ht
    unfold votingPowerIn
    rw [run_bind_of_ok hnew, run_bind_of_ok (run_lift_eq_ok.mpr htB), run_bind_of_ok hfresh]
    rfl

/-- The errors of `voting_power_in_sets` are errors of the tally. -/
theorem votingPowerInSets_run_eq_error {V : Signature.Verifier} {P : Prost} {sh : SignedHeader}
    {first second : Validator.Set × TrustThresholdFraction} {e : VerificationError}
    (h : (votingPowerInSets V P sh first second).run = some (.error e)) : TallyError e := by
  unfold votingPowerInSets at h
  rcases run_bind_eq_error.mp h with h | ⟨votes₀, -, h⟩
  · exact NonAbsentCommitVotes.new_run_eq_error h
  rcases run_bind_eq_error.mp h with h | ⟨totalA, -, h⟩
  · simp at h
  rcases run_bind_eq_error.mp h with h | ⟨r₁, -, h⟩
  · exact votingPowerInLoop_run_eq_error h
  rcases run_bind_eq_error.mp h with h | ⟨totalB, -, h⟩
  · simp at h
  rcases run_bind_eq_error.mp h with h | ⟨r₂, -, h⟩
  · exact votingPowerInLoop_run_eq_error h
  · cases h

/-- A commit without commit votes gives an empty collection. -/
theorem NonAbsentCommitVotes.new_run_of_no_commit {sh : SignedHeader}
    (hnone : ∀ cs ∈ sh.commit.signatures, cs.isCommit = false)
    (hlen : sh.commit.signatures.length ≤ 2 ^ 31) :
    (NonAbsentCommitVotes.new sh).run = some (.ok ⟨[]⟩) := by
  have hsigned : ∀ a ts, CommitSig.blockIdFlagCommit a ts none ∉ sh.commit.signatures :=
    fun a ts h => by simpa [CommitSig.isCommit] using hnone _ h
  have hempty : sh.commit.signatures.filterMap (commitVote sh.commit sh.header.chainId) = [] := by
    rw [List.filterMap_eq_nil_iff]
    intro cs hcs
    have := hnone cs hcs
    rcases cs with _ | ⟨a, ts, _ | s⟩ | _ <;> simp_all [commitVote, CommitSig.isCommit]
  unfold NonAbsentCommitVotes.new
  rw [run_bind_of_ok (collectVotes_run_of_signed (by simpa using hlen) hsigned), hempty]
  simp [Slice.sortByKey, Slice.findAdjacentDup]

/-- A walk over an empty collection credits nobody. -/
theorem votingPowerInLoop_nil_votes {V : Signature.Verifier} {P : Prost} :
    ∀ (vals : List Validator.Info) (power : VotingPowerTally) (seen : List Nat),
      (votingPowerInLoop V P vals power seen ⟨[]⟩).run = some (.ok (power, ⟨[]⟩))
  | [], _, _ => rfl
  | w :: rest, power, seen => by
    unfold votingPowerInLoop
    rw [run_bind_of_ok (NonAbsentCommitVotes.hasVoted_run_of_not_mem .nil (by simp))]
    exact votingPowerInLoop_nil_votes rest power seen

/-- Without commit votes, both tallies of the shared walk are zero. -/
theorem votingPowerInSets_run_of_no_commit {V : Signature.Verifier} {P : Prost}
    {sh : SignedHeader} (hnone : ∀ cs ∈ sh.commit.signatures, cs.isCommit = false)
    (hlen : sh.commit.signatures.length ≤ 2 ^ 31) {A B : Validator.Set}
    {ta tb : TrustThresholdFraction} {totalA totalB : UInt64} (hA : totalPowerOf A = some totalA)
    (hB : totalPowerOf B = some totalB) :
    (votingPowerInSets V P sh (A, ta) (B, tb)).run =
      some (.ok (.new totalA ta, .new totalB tb)) := by
  unfold votingPowerInSets votingPowerInImpl
  rw [run_bind_of_ok (NonAbsentCommitVotes.new_run_of_no_commit hnone hlen),
    run_bind_of_ok (run_lift_eq_ok.mpr hA), run_bind_of_ok (votingPowerInLoop_nil_votes _ _ _),
    run_bind_of_ok (run_lift_eq_ok.mpr hB), run_bind_of_ok (votingPowerInLoop_nil_votes _ _ _)]
  rfl

/-! ## The checks of a tally -/

namespace VotingPowerTally

/-- What `check` computes: when both products are representable, the tally passes exactly when it
exceeds the threshold's share of the total, and fails with itself otherwise. -/
theorem check_eq_some {t : VotingPowerTally} {r : Except VotingPowerTally Unit} :
    t.check = some r ↔
      t.tallied.toNat * t.trustThreshold.denominator.toNat < 2 ^ 64 ∧
        t.total.toNat * t.trustThreshold.numerator.toNat < 2 ^ 64 ∧
        r = if t.total.toNat * t.trustThreshold.numerator.toNat <
            t.tallied.toNat * t.trustThreshold.denominator.toNat then .ok () else .error t := by
  simp only [check, Option.bind_eq_bind, Option.bind_eq_some_iff, Option.pure_def,
    Option.some.injEq, TrustThresholdFraction.isEnoughPower_eq_some]
  constructor
  · rintro ⟨b, ⟨h₁, h₂, rfl⟩, rfl⟩
    exact ⟨h₁, h₂, by simp only [decide_eq_true_eq]⟩
  · rintro ⟨h₁, h₂, rfl⟩
    exact ⟨_, ⟨h₁, h₂, rfl⟩, by simp only [decide_eq_true_eq]⟩

/-- `check` passes exactly when the tally exceeds the threshold's share of the total, both products
being representable. -/
theorem check_eq_ok {t : VotingPowerTally} {u : Unit} :
    t.check = some (.ok u) ↔
      t.tallied.toNat * t.trustThreshold.denominator.toNat < 2 ^ 64 ∧
        t.total.toNat * t.trustThreshold.numerator.toNat < 2 ^ 64 ∧
        t.total.toNat * t.trustThreshold.numerator.toNat <
          t.tallied.toNat * t.trustThreshold.denominator.toNat := by
  rw [check_eq_some]
  -- the comparison decides which of the two results is returned
  by_cases hlt : t.total.toNat * t.trustThreshold.numerator.toNat <
      t.tallied.toNat * t.trustThreshold.denominator.toNat
  · rw [if_pos hlt]
    exact ⟨fun ⟨h₁, h₂, _⟩ => ⟨h₁, h₂, hlt⟩, fun ⟨h₁, h₂, _⟩ => ⟨h₁, h₂, rfl⟩⟩
  · rw [if_neg hlt]
    exact ⟨fun ⟨_, _, h⟩ => (nomatch h), fun ⟨_, _, h⟩ => absurd h hlt⟩

/-- The check of a tally fails exactly when the products fit 64 bits and the tally is not above the
threshold. -/
theorem check_eq_error {t t' : VotingPowerTally} :
    t.check = some (.error t') ↔ t' = t ∧
      t.tallied.toNat * t.trustThreshold.denominator.toNat < 2 ^ 64 ∧
        t.total.toNat * t.trustThreshold.numerator.toNat < 2 ^ 64 ∧
        t.tallied.toNat * t.trustThreshold.denominator.toNat ≤
          t.total.toNat * t.trustThreshold.numerator.toNat := by
  rw [check_eq_some]
  by_cases hlt : t.total.toNat * t.trustThreshold.numerator.toNat <
      t.tallied.toNat * t.trustThreshold.denominator.toNat
  · rw [if_pos hlt]
    exact ⟨fun ⟨_, _, h⟩ => (nomatch h), fun ⟨_, _, _, hle⟩ => absurd hlt (Nat.not_lt.mpr hle)⟩
  · rw [if_neg hlt]
    exact ⟨fun ⟨h₁, h₂, h⟩ => ⟨Except.error.inj h, h₁, h₂, Nat.le_of_not_lt hlt⟩,
      fun ⟨h, h₁, h₂, _⟩ => ⟨h₁, h₂, by rw [h]⟩⟩

end VotingPowerTally

/-- A tally of `voting_power_in` that passes its check is more than the threshold's share of the
set's power, signed. -/
theorem signedPower_of_check {V : Signature.Verifier} {P : Prost} {sh : SignedHeader}
    {vals : Validator.Set} {tt : TrustThresholdFraction} {tally : VotingPowerTally}
    (h : (votingPowerIn V P sh vals tt).run = some (.ok tally)) (hchk : tally.check = some (.ok ())) :
    ∃ p, SignedPower V P sh vals.validators p ∧
      (vals.validators.map fun v => v.power.value).sum * tt.numerator.toNat <
        p * tt.denominator.toNat := by
  obtain ⟨htotal, rfl⟩ := votingPowerIn_tally h
  obtain ⟨-, -, hlt⟩ := VotingPowerTally.check_eq_ok.mp hchk
  exact ⟨_, votingPowerIn_sound h, htotal ▸ hlt⟩

/-- A tally of `voting_power_in` that fails its check bounds the power of every sublist of
validators that all sign: it is at most the threshold's share of the set's power. -/
theorem signedPower_le_of_check {V : Signature.Verifier} {P : Prost} {sh : SignedHeader}
    {vals : Validator.Set} {tt : TrustThresholdFraction} {tally : VotingPowerTally}
    (h : (votingPowerIn V P sh vals tt).run = some (.ok tally))
    (hchk : tally.check = some (.error tally)) {S : List Validator.Info}
    (hS : S.Sublist vals.validators) (hsigned : ∀ v ∈ S, ∃ j, SignsAt V P sh v j) :
    (S.map fun v => v.power.value).sum * tt.denominator.toNat ≤
      (vals.validators.map fun v => v.power.value).sum * tt.numerator.toNat := by
  obtain ⟨htotal, rfl⟩ := votingPowerIn_tally h
  obtain ⟨-, -, -, hle⟩ := VotingPowerTally.check_eq_error.mp hchk
  have hS' := votingPowerIn_complete h (by rw [hchk]; simp) hS hsigned
  rw [← htotal]
  calc (S.map fun v => v.power.value).sum * tally.trustThreshold.denominator.toNat
      ≤ tally.tallied.toNat * tally.trustThreshold.denominator.toNat := Nat.mul_le_mul_right _ hS'
    _ ≤ tally.total.toNat * tally.trustThreshold.numerator.toNat := hle

/-! ## `check_signers_overlap` and `check_enough_trust_and_signers` -/

/-- A successful `check_signers_overlap` tallied more than two thirds of the set's power. -/
theorem checkSignersOverlap_run_eq_ok {V : Signature.Verifier} {P : Prost} {sh : SignedHeader}
    {U : Validator.Set} (h : (checkSignersOverlap V P sh U).run = some (.ok ())) :
    ∃ t, (votingPowerIn V P sh U .twoThirds).run = some (.ok t) ∧ t.check = some (.ok ()) := by
  unfold checkSignersOverlap at h
  obtain ⟨t, ht, h⟩ := run_bind_eq_ok.mp h
  obtain ⟨c, hc, h⟩ := run_bind_eq_ok.mp h
  cases c with
  | error => cases h
  | ok => exact ⟨t, ht, run_lift_eq_ok.mp hc⟩

/-- `check_signers_overlap` fails with an error of the tally or with `InsufficientSignersOverlap`,
never with `NotEnoughTrust`. -/
theorem checkSignersOverlap_run_eq_error {V : Signature.Verifier} {P : Prost} {sh : SignedHeader}
    {U : Validator.Set} {e : VerificationError}
    (h : (checkSignersOverlap V P sh U).run = some (.error e)) :
    TallyError e ∨ ∃ t, e = .insufficientSignersOverlap t := by
  unfold checkSignersOverlap at h
  rcases run_bind_eq_error.mp h with h | ⟨t, -, h⟩
  · exact .inl (votingPowerIn_run_eq_error h)
  rcases run_bind_eq_error.mp h with h | ⟨c, -, h⟩
  · simp at h
  cases c with
  | error t' =>
    cases h
    exact .inr ⟨t', rfl⟩
  | ok => cases h

/-- A successful `check_enough_trust_and_signers` tallied both sets above their thresholds. -/
theorem checkEnoughTrustAndSigners_run_eq_ok {V : Signature.Verifier} {P : Prost}
    {sh : SignedHeader} {T U : Validator.Set} {tt : TrustThresholdFraction}
    (h : (checkEnoughTrustAndSigners V P sh T tt U).run = some (.ok ())) :
    ∃ t₁ t₂, (votingPowerInSets V P sh (T, tt) (U, .twoThirds)).run = some (.ok (t₁, t₂)) ∧
      t₁.check = some (.ok ()) ∧ t₂.check = some (.ok ()) := by
  unfold checkEnoughTrustAndSigners at h
  obtain ⟨⟨t₁, t₂⟩, hsets, h⟩ := run_bind_eq_ok.mp h
  dsimp only at h
  obtain ⟨c₁, hc₁, h⟩ := run_bind_eq_ok.mp h
  cases c₁ with
  | error => cases h
  | ok =>
    obtain ⟨c₂, hc₂, h⟩ := run_bind_eq_ok.mp h
    cases c₂ with
    | error => cases h
    | ok => exact ⟨t₁, t₂, hsets, run_lift_eq_ok.mp hc₁, run_lift_eq_ok.mp hc₂⟩

/-- `check_enough_trust_and_signers` reports `NotEnoughTrust` exactly when both walks return and
the trusted tally fails its check, whatever the untrusted tally is. -/
theorem checkEnoughTrustAndSigners_run_eq_notEnoughTrust {V : Signature.Verifier} {P : Prost}
    {sh : SignedHeader} {T U : Validator.Set} {tt : TrustThresholdFraction} {t : VotingPowerTally} :
    (checkEnoughTrustAndSigners V P sh T tt U).run = some (.error (.notEnoughTrust t)) ↔
      ∃ t₂, (votingPowerInSets V P sh (T, tt) (U, .twoThirds)).run = some (.ok (t, t₂)) ∧
        t.check = some (.error t) := by
  unfold checkEnoughTrustAndSigners
  constructor
  · intro h
    rcases run_bind_eq_error.mp h with h | ⟨⟨t₁, t₂⟩, hsets, h⟩
    · exact absurd rfl ((votingPowerInSets_run_eq_error h).ne_notEnoughTrust t)
    dsimp only at h
    rcases run_bind_eq_error.mp h with h | ⟨c₁, hc₁, h⟩
    · simp at h
    cases c₁ with
    | error t' =>
      cases h
      -- the failed check returns the trusted tally itself
      have hc := run_lift_eq_ok.mp hc₁
      obtain ⟨rfl, -⟩ := VotingPowerTally.check_eq_error.mp hc
      exact ⟨t₂, hsets, hc⟩
    | ok =>
      rcases run_bind_eq_error.mp h with h | ⟨c₂, -, h⟩
      · simp at h
      cases c₂ with
      | error => cases h
      | ok => cases h
  · rintro ⟨t₂, hsets, hchk⟩
    rw [run_bind_of_ok hsets]
    dsimp only
    rw [run_bind_of_ok (run_lift_eq_ok.mpr hchk)]
    rfl

/-! ## Runs that do not panic

Counting voting power panics at four places: an index of the commit past `i32::MAX`, the addition
of a power to the tally, the `debug_assert!` that the tally stays within the total, and the products
of `is_enough_power`. Each lemma below rules one out; the walk's does so for every step, by
induction on the validators left, from the bound that the tally and the powers still to count stay
within the total. -/

/-- Collecting the votes of at most `2 ^ 31` signatures never panics. -/
theorem collectVotes_run_ne_none {commit chainId} :
    ∀ {sigs : List CommitSig} {k}, k + sigs.length ≤ 2 ^ 31 →
      (collectVotes commit chainId k sigs).run ≠ none
  | [], _, _ => Option.some_ne_none _
  | cs :: rest, k, hk => by
    have hi : ValidatorIndex.tryFromUsize k = .ok ⟨k, by simp at hk; omega⟩ := by
      rw [ValidatorIndex.tryFromUsize, dif_pos]
    have ih : (collectVotes commit chainId (k + 1) rest).run ≠ none :=
      collectVotes_run_ne_none (by simp at hk; omega)
    unfold collectVotes
    simp only [hi, Except.toOption, ExceptT.run_bind_lift, Option.bind_eq_bind, Option.bind_some]
    rcases cs with _ | ⟨a, ts, _ | sig⟩ | ⟨a, ts, sig⟩
    · exact ih
    · -- a commit vote without a signature is an error, not a panic
      simp only [NonAbsentCommitVote.new, SignedVote.fromVote, Option.map_none]
      exact run_bind_ne_none (Option.some_ne_none _) fun _ h => by cases h
    · simp only [NonAbsentCommitVote.new, SignedVote.fromVote, Option.map_some]
      exact run_bind_ne_none (Option.some_ne_none _) fun _ _ =>
        run_bind_ne_none ih fun _ _ => Option.some_ne_none _
    · exact ih

/-- The constructor `NonAbsentCommitVotes::new` never panics on a commit of at most `2 ^ 31`
signatures. -/
theorem NonAbsentCommitVotes.new_run_ne_none {sh : SignedHeader}
    (hlen : sh.commit.signatures.length ≤ 2 ^ 31) : (NonAbsentCommitVotes.new sh).run ≠ none := by
  unfold NonAbsentCommitVotes.new
  refine run_bind_ne_none (collectVotes_run_ne_none (by omega)) fun votes _ => ?_
  dsimp only
  split <;> exact Option.some_ne_none _

/-- The binary search finds an index inside the collection, so reading the vote there does not
panic. -/
theorem NonAbsentCommitVotes.hasVoted_run_ne_none (V : Signature.Verifier) (P : Prost)
    (self : NonAbsentCommitVotes) (w : Validator.Info) : (self.hasVoted V P w).run ≠ none := by
  rw [NonAbsentCommitVotes.hasVoted_run]
  rcases hs : Slice.binarySearchByKey self.votes w.address NonAbsentCommitVote.validatorId
    with _ | idx
  · exact Option.some_ne_none _
  · obtain ⟨hi, -⟩ := Slice.binarySearchByKey_ok hs
    simp only [List.getElem?_eq_getElem hi]
    split <;> exact Option.some_ne_none _

/-- A power that keeps the tally within the total is added without a panic. -/
theorem VotingPowerTally.tally_of_le {t : VotingPowerTally} {p : UInt64}
    (h : t.tallied.toNat + p.toNat ≤ t.total.toNat) :
    ∃ t', t.tally p = some t' ∧ t'.tallied.toNat = t.tallied.toNat + p.toNat ∧
      t'.total = t.total ∧ t'.trustThreshold = t.trustThreshold := by
  have hlt : t.tallied.toNat + p.toNat < 2 ^ 64 := lt_of_le_of_lt h t.total.toNat_lt
  have hadd : checkedAdd t.tallied p = some (UInt64.ofNatLT _ hlt) :=
    checkedAdd_eq_some.mpr ⟨hlt, UInt64.toNat_ofNatLT⟩
  have hle : UInt64.ofNatLT _ hlt ≤ t.total := by
    rw [UInt64.le_iff_toNat_le, UInt64.toNat_ofNatLT]
    exact h
  refine ⟨{ t with tallied := UInt64.ofNatLT _ hlt }, ?_, UInt64.toNat_ofNatLT, rfl, rfl⟩
  simp only [VotingPowerTally.tally, hadd, Option.bind_eq_bind, Option.bind_some,
    decide_eq_true hle, assert, ↓reduceIte, Option.pure_def]

/-- The `debug_assert!` of a tally step: a returned tally is within its total. -/
theorem VotingPowerTally.tallied_le_of_tally {t t' : VotingPowerTally} {p : UInt64}
    (h : t.tally p = some t') : t'.tallied.toNat ≤ t'.total.toNat := by
  simp only [VotingPowerTally.tally, Option.bind_eq_bind, Option.bind_eq_some_iff,
    Option.pure_def, Option.some.injEq, assert_eq_some, decide_eq_true_eq] at h
  obtain ⟨s, -, -, hle, rfl⟩ := h
  exact UInt64.le_iff_toNat_le.mp hle

/-- The check of a tally never panics when both products fit 64 bits. -/
theorem VotingPowerTally.check_ne_none {t : VotingPowerTally}
    (h₁ : t.tallied.toNat * t.trustThreshold.denominator.toNat < 2 ^ 64)
    (h₂ : t.total.toNat * t.trustThreshold.numerator.toNat < 2 ^ 64) : t.check ≠ none := by
  rw [VotingPowerTally.check_eq_some.mpr ⟨h₁, h₂, rfl⟩]
  exact Option.some_ne_none _

/-- A tally within its total passes its check or fails it, without a panic, once the total's
products with the threshold's terms fit in `u64`. -/
theorem VotingPowerTally.check_ne_none_of_le {t : VotingPowerTally}
    (hle : t.tallied.toNat ≤ t.total.toNat)
    (hden : t.total.toNat * t.trustThreshold.denominator.toNat < 2 ^ 64)
    (hnum : t.total.toNat * t.trustThreshold.numerator.toNat < 2 ^ 64) : t.check ≠ none :=
  VotingPowerTally.check_ne_none (lt_of_le_of_lt (Nat.mul_le_mul_right _ hle) hden) hnum

/-- The walk does not panic while the tally and the powers still to walk stay within the total, and
the total's products with the threshold's terms fit in `u64`. -/
theorem votingPowerInLoop_run_ne_none {V : Signature.Verifier} {P : Prost} :
    ∀ (rest : List Validator.Info) (power : VotingPowerTally) (seen : List Nat)
      (votes : NonAbsentCommitVotes),
      power.tallied.toNat + (rest.map fun v => v.power.value).sum ≤ power.total.toNat →
      power.total.toNat * power.trustThreshold.denominator.toNat < 2 ^ 64 →
      power.total.toNat * power.trustThreshold.numerator.toNat < 2 ^ 64 →
      (votingPowerInLoop V P rest power seen votes).run ≠ none
  | [], _, _, _, _, _, _ => Option.some_ne_none _
  | w :: rest, power, seen, votes, hsum, hden, hnum => by
    simp only [List.map_cons, List.sum_cons] at hsum
    unfold votingPowerInLoop
    refine run_bind_ne_none (votes.hasVoted_run_ne_none V P w) fun ⟨r, votes'⟩ _ => ?_
    cases r with
    | none => exact votingPowerInLoop_run_ne_none rest power seen votes' (by omega) hden hnum
    | some idx =>
      dsimp only
      split
      · -- a validator seen twice is an error
        exact Option.some_ne_none _
      · obtain ⟨power', htally, htallied, htotal, htt⟩ :=
          power.tally_of_le (p := w.power.toU64) (by rw [Power.toNat_toU64]; omega)
        have hle : power'.tallied.toNat ≤ power'.total.toNat :=
          VotingPowerTally.tallied_le_of_tally htally
        have hden' : power'.total.toNat * power'.trustThreshold.denominator.toNat < 2 ^ 64 := by
          rw [htotal, htt]
          exact hden
        have hnum' : power'.total.toNat * power'.trustThreshold.numerator.toNat < 2 ^ 64 := by
          rw [htotal, htt]
          exact hnum
        refine run_bind_ne_none (run_lift_ne_none (by rw [htally]; exact Option.some_ne_none _))
          fun power'' hp => ?_
        rw [run_lift_eq_ok, htally, Option.some.injEq] at hp
        subst hp
        refine run_bind_ne_none
          (run_lift_ne_none (VotingPowerTally.check_ne_none_of_le hle hden' hnum'))
          fun checked _ => ?_
        cases checked with
        | ok => exact Option.some_ne_none _
        | error =>
          -- the walk goes on with the rest, whose powers still fit below the total
          refine votingPowerInLoop_run_ne_none rest power' (seen ++ [idx]) votes' ?_ hden' hnum'
          rw [htallied, htotal, Power.toNat_toU64]
          omega

/-- The walk keeps a tally within its total, and changes neither the total nor the threshold. -/
theorem votingPowerInLoop_result {V : Signature.Verifier} {P : Prost}
    {vals : List Validator.Info} {power : VotingPowerTally} {seen : List Nat}
    {votes : NonAbsentCommitVotes} {result : VotingPowerTally × NonAbsentCommitVotes}
    (hle : power.tallied.toNat ≤ power.total.toNat)
    (h : (votingPowerInLoop V P vals power seen votes).run = some (.ok result)) :
    result.1.tallied.toNat ≤ result.1.total.toNat ∧ result.1.total = power.total ∧
      result.1.trustThreshold = power.trustThreshold := by
  refine votingPowerInLoop_preserves
    (fun p _ => p.tallied.toNat ≤ p.total.toNat ∧ p.total = power.total ∧
      p.trustThreshold = power.trustThreshold)
    (fun _ _ _ _ _ _ hQ _ => hQ) (fun _ _ _ _ _ hQ ht => ?_) (List.Subset.refl _) ⟨hle, rfl, rfl⟩ h
  obtain ⟨-, htotal, htt⟩ := VotingPowerTally.tally_eq_some ht
  exact ⟨VotingPowerTally.tallied_le_of_tally ht, htotal.trans hQ.2.1, htt.trans hQ.2.2⟩

/-- A total within `MAX_TOTAL_VOTING_POWER` keeps the products of `is_enough_power` in `u64` for a
threshold whose denominator does. -/
theorem mul_lt_of_le_maxTotalVotingPower {total : Nat} {tt : TrustThresholdFraction}
    (hmax : total ≤ Validator.Set.maxTotalVotingPower)
    (htt : Validator.Set.maxTotalVotingPower * tt.denominator.toNat < 2 ^ 64) :
    total * tt.denominator.toNat < 2 ^ 64 ∧ total * tt.numerator.toNat < 2 ^ 64 :=
  ⟨lt_of_le_of_lt (Nat.mul_le_mul_right _ hmax) htt,
    lt_of_le_of_lt (Nat.mul_le_mul hmax tt.numerator_le) htt⟩

/-- The largest total power times the denominator of two thirds fits 64 bits. -/
theorem maxTotalVotingPower_mul_twoThirds :
    Validator.Set.maxTotalVotingPower * TrustThresholdFraction.twoThirds.denominator.toNat <
      2 ^ 64 := by
  unfold Validator.Set.maxTotalVotingPower
  decide

/-- The walk over a set that `try_from_parts` built, from its total and nothing tallied, does not
panic. -/
theorem votingPowerInLoop_run_ne_none_of_canonical {V : Signature.Verifier} {P : Prost}
    {vals : Validator.Set} {tt : TrustThresholdFraction} (votes : NonAbsentCommitVotes)
    (hvals : vals.Canonical)
    (htt : Validator.Set.maxTotalVotingPower * tt.denominator.toNat < 2 ^ 64) :
    (votingPowerInLoop V P vals.validators (.new vals.totalVotingPower.toU64 tt) [] votes).run ≠
      none := by
  have htotal : vals.totalVotingPower.toU64.toNat = (vals.validators.map fun v => v.power.value).sum := by
    rw [Power.toNat_toU64, hvals.total_eq]
  have hmax : vals.totalVotingPower.toU64.toNat ≤ Validator.Set.maxTotalVotingPower := by
    rw [Power.toNat_toU64]
    exact hvals.total_le
  obtain ⟨hden, hnum⟩ := mul_lt_of_le_maxTotalVotingPower hmax htt
  refine votingPowerInLoop_run_ne_none _ _ _ _ ?_ hden hnum
  show (0 : UInt64).toNat + _ ≤ vals.totalVotingPower.toU64.toNat
  rw [htotal, UInt64.toNat_zero, Nat.zero_add]

/-- `voting_power_in` does not panic on a set that `try_from_parts` built, a commit of at most
`2 ^ 31` signatures and a threshold whose denominator times the cap fits in `u64`. -/
theorem votingPowerIn_run_ne_none {V : Signature.Verifier} {P : Prost} {sh : SignedHeader}
    {vals : Validator.Set} {tt : TrustThresholdFraction} (hvals : vals.Canonical)
    (hlen : sh.commit.signatures.length ≤ 2 ^ 31)
    (htt : Validator.Set.maxTotalVotingPower * tt.denominator.toNat < 2 ^ 64) :
    (votingPowerIn V P sh vals tt).run ≠ none := by
  unfold votingPowerIn
  refine run_bind_ne_none (NonAbsentCommitVotes.new_run_ne_none hlen) fun votes _ => ?_
  rw [run_bind_of_ok (run_lift_eq_ok.mpr (totalPowerOf_of_canonical hvals))]
  exact run_bind_ne_none (votingPowerInLoop_run_ne_none_of_canonical votes hvals htt)
    fun _ _ => Option.some_ne_none _

/-- The tallies a walk from a set that `try_from_parts` built returns pass or fail their check
without a panic. -/
theorem check_ne_none_of_walk {V : Signature.Verifier} {P : Prost} {vals : Validator.Set}
    {tt : TrustThresholdFraction} {total : UInt64} {votes : NonAbsentCommitVotes}
    {result : VotingPowerTally × NonAbsentCommitVotes} (hvals : vals.Canonical)
    (htt : Validator.Set.maxTotalVotingPower * tt.denominator.toNat < 2 ^ 64)
    (htotal : totalPowerOf vals = some total)
    (h : (votingPowerInLoop V P vals.validators (.new total tt) [] votes).run = some (.ok result)) :
    result.1.check ≠ none := by
  rw [totalPowerOf_of_canonical hvals, Option.some.injEq] at htotal
  subst htotal
  obtain ⟨hle, htot, htt'⟩ := votingPowerInLoop_result (by exact Nat.zero_le _) h
  have hmax : result.1.total.toNat ≤ Validator.Set.maxTotalVotingPower := by
    rw [htot]
    show vals.totalVotingPower.toU64.toNat ≤ _
    rw [Power.toNat_toU64]
    exact hvals.total_le
  have htt'' : result.1.trustThreshold = tt := htt'
  obtain ⟨hden, hnum⟩ := mul_lt_of_le_maxTotalVotingPower hmax htt
  rw [← htt''] at hden hnum
  exact VotingPowerTally.check_ne_none_of_le hle hden hnum

/-- The tally `voting_power_in` returns for a set that `try_from_parts` built passes or fails its
check without a panic. -/
theorem check_ne_none_of_votingPowerIn {V : Signature.Verifier} {P : Prost} {sh : SignedHeader}
    {vals : Validator.Set} {tt : TrustThresholdFraction} {tally : VotingPowerTally}
    (hvals : vals.Canonical)
    (htt : Validator.Set.maxTotalVotingPower * tt.denominator.toNat < 2 ^ 64)
    (h : (votingPowerIn V P sh vals tt).run = some (.ok tally)) : tally.check ≠ none := by
  obtain ⟨_, _, _, -, htotal, hloop⟩ := votingPowerIn_run_eq_ok h
  -- elaborated before it meets the goal, whose unifier would otherwise unfold `check`
  exact (check_ne_none_of_walk hvals htt htotal hloop :)

/-- `voting_power_in_sets` does not panic on two sets that `try_from_parts` built and a commit of
at most `2 ^ 31` signatures: the second walk starts from the votes the first leaves. -/
theorem votingPowerInSets_run_ne_none {V : Signature.Verifier} {P : Prost} {sh : SignedHeader}
    {A B : Validator.Set} {ta tb : TrustThresholdFraction} (hA : A.Canonical) (hB : B.Canonical)
    (hlen : sh.commit.signatures.length ≤ 2 ^ 31)
    (hta : Validator.Set.maxTotalVotingPower * ta.denominator.toNat < 2 ^ 64)
    (htb : Validator.Set.maxTotalVotingPower * tb.denominator.toNat < 2 ^ 64) :
    (votingPowerInSets V P sh (A, ta) (B, tb)).run ≠ none := by
  unfold votingPowerInSets
  refine run_bind_ne_none (NonAbsentCommitVotes.new_run_ne_none hlen) fun votes _ => ?_
  rw [run_bind_of_ok (run_lift_eq_ok.mpr (totalPowerOf_of_canonical hA))]
  refine run_bind_ne_none (votingPowerInLoop_run_ne_none_of_canonical votes hA hta)
    fun r₁ _ => ?_
  rw [run_bind_of_ok (run_lift_eq_ok.mpr (totalPowerOf_of_canonical hB))]
  exact run_bind_ne_none (votingPowerInLoop_run_ne_none_of_canonical r₁.2 hB htb)
    fun _ _ => Option.some_ne_none _

/-- `check_signers_overlap` does not panic on a set that `try_from_parts` built and a commit of at
most `2 ^ 31` signatures. -/
theorem checkSignersOverlap_run_ne_none {V : Signature.Verifier} {P : Prost} {sh : SignedHeader}
    {vals : Validator.Set} (hvals : vals.Canonical)
    (hlen : sh.commit.signatures.length ≤ 2 ^ 31) :
    (checkSignersOverlap V P sh vals).run ≠ none := by
  unfold checkSignersOverlap
  refine run_bind_ne_none (votingPowerIn_run_ne_none hvals hlen maxTotalVotingPower_mul_twoThirds)
    fun t ht => ?_
  -- the tally of the walk is checked
  refine run_bind_ne_none (run_lift_ne_none
    (check_ne_none_of_votingPowerIn hvals maxTotalVotingPower_mul_twoThirds ht)) fun c _ => ?_
  cases c <;> exact Option.some_ne_none _

/-- `check_enough_trust_and_signers` does not panic on two sets that `try_from_parts` built, a
commit of at most `2 ^ 31` signatures and a trust threshold whose denominator times the cap fits in
`u64`. -/
theorem checkEnoughTrustAndSigners_run_ne_none {V : Signature.Verifier} {P : Prost}
    {sh : SignedHeader} {T U : Validator.Set} {tt : TrustThresholdFraction}
    (hT : T.Canonical) (hU : U.Canonical) (hlen : sh.commit.signatures.length ≤ 2 ^ 31)
    (htt : Validator.Set.maxTotalVotingPower * tt.denominator.toNat < 2 ^ 64) :
    (checkEnoughTrustAndSigners V P sh T tt U).run ≠ none := by
  unfold checkEnoughTrustAndSigners
  refine run_bind_ne_none
    (votingPowerInSets_run_ne_none hT hU hlen htt maxTotalVotingPower_mul_twoThirds)
    fun tallies ht => ?_
  -- the two tallies are checked in turn
  obtain ⟨t₁, t₂⟩ := tallies
  obtain ⟨_, _, _, _, _, -, htT, hloop₁, htU, hloop₂⟩ := votingPowerInSets_walks ht
  have hc₁ := check_ne_none_of_walk hT htt htT hloop₁
  have hc₂ := check_ne_none_of_walk hU maxTotalVotingPower_mul_twoThirds htU hloop₂
  refine run_bind_ne_none (run_lift_ne_none hc₁) fun c₁ _ => ?_
  cases c₁ with
  | error => exact Option.some_ne_none _
  | ok =>
    refine run_bind_ne_none (run_lift_ne_none hc₂) fun c₂ _ => ?_
    cases c₂ <;> exact Option.some_ne_none _

end Verifier

end Tendermint
