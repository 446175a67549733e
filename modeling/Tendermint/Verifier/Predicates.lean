import Tendermint.Verifier.VotingPower

/-!
# Verification predicates

`predicates.rs` and `operations/commit_validator.rs`: the checks the verifier combines. The default
methods of `VerificationPredicates` are modelled, with the trait's `Sha256` as the Merkle hash they
hash with, and the default methods of `CommitValidator` (those of `ProdCommitValidator`); the voting
power calculator is `ProvidedVotingPowerCalculator`, through its signature verifier.

Most predicates compare two values and return `Ok(())` or one error built from them: they are
`Rust.ensure` applied to their own condition and error. `is_within_trust_period` and
`is_header_from_past` first add a duration to a time, which may fail, and `is_monotonic_height`
computes the expected height of its error with `increment`, which panics past the last height.

Below the predicates, the conditions of the verification spec that the checks of one verifier method
decide are stated as structures, and each method's checks are shown to hold exactly when the
structure does.
-/

namespace Tendermint

namespace Verifier

open Rust

namespace CommitValidator

/-- `CommitValidator::validate`: at least one entry that is not absent, and one entry per
validator. -/
def validate (signedHeader : SignedHeader) (validatorSet : Validator.Set) :
    Except VerificationError Unit := do
  let signatures := signedHeader.commit.signatures
  if !signatures.any (fun cs => !cs.isAbsent) then throw .noSignatureForCommit
  if signatures.length ≠ validatorSet.validators.length then
    throw (.mismatchPreCommitLength signatures.length validatorSet.validators.length)
  pure ()

/-- `CommitValidator::validate_full`: every entry that is not absent names a validator of the
set. -/
def validateFull (signedHeader : SignedHeader) (validatorSet : Validator.Set) :
    Except VerificationError Unit :=
  signedHeader.commit.signatures.forM fun commitSig =>
    match commitSig with
    | .blockIdFlagAbsent => pure ()
    | .blockIdFlagCommit validatorAddress .. | .blockIdFlagNil validatorAddress .. =>
      if (validatorSet.validator validatorAddress).isNone then
        throw (.faultySigner validatorAddress validatorSet)
      else pure ()

end CommitValidator

namespace VerificationPredicates

/-- `validator_sets_match`. -/
def validatorSetsMatch (H : MerkleHash) (P : Prost) (validators : Validator.Set)
    (headerValidatorsHash : Hash) : Except VerificationError Unit :=
  let validatorsHash := validators.hashWith H P
  ensure (headerValidatorsHash = validatorsHash)
    (.invalidValidatorSet headerValidatorsHash validatorsHash)

/-- `next_validators_match`. -/
def nextValidatorsMatch (H : MerkleHash) (P : Prost) (nextValidators : Validator.Set)
    (headerNextValidatorsHash : Hash) : Except VerificationError Unit :=
  let nextValidatorsHash := nextValidators.hashWith H P
  ensure (headerNextValidatorsHash = nextValidatorsHash)
    (.invalidNextValidatorSet headerNextValidatorsHash nextValidatorsHash)

/-- `header_matches_commit`. -/
def headerMatchesCommit (H : MerkleHash) (P : Prost) (header : Header) (commitHash : Hash) :
    Except VerificationError Unit :=
  let headerHash := header.hashWith H P
  ensure (headerHash = commitHash) (.invalidCommitValue headerHash commitHash)

/-- `valid_commit`. -/
def validCommit (signedHeader : SignedHeader) (validators : Validator.Set) :
    Except VerificationError Unit := do
  CommitValidator.validate signedHeader validators
  CommitValidator.validateFull signedHeader validators

/-- `is_within_trust_period`. -/
def isWithinTrustPeriod (trustedHeaderTime : Time) (trustingPeriod : Duration) (now : Time) :
    Except VerificationError Unit := do
  let expiresAt ← (trustedHeaderTime.add trustingPeriod).mapError .tendermint
  ensure (expiresAt > now) (.notWithinTrustPeriod expiresAt now)

/-- `is_header_from_past`. -/
def isHeaderFromPast (untrustedHeaderTime : Time) (clockDrift : Duration) (now : Time) :
    Except VerificationError Unit := do
  let drifted ← (now.add clockDrift).mapError .tendermint
  ensure (untrustedHeaderTime < drifted) (.headerFromTheFuture untrustedHeaderTime now clockDrift)

/-- `is_monotonic_bft_time`. -/
def isMonotonicBftTime (untrustedHeaderTime trustedHeaderTime : Time) :
    Except VerificationError Unit :=
  ensure (untrustedHeaderTime > trustedHeaderTime)
    (.nonMonotonicBftTime untrustedHeaderTime trustedHeaderTime)

/-- `is_monotonic_height`: the error reports `trusted_height.increment()`, which panics past the
last height. -/
def isMonotonicHeight (untrustedHeight trustedHeight : Height) :
    ExceptT VerificationError Option Unit :=
  if untrustedHeight > trustedHeight then pure ()
  else do
    let expected ← ExceptT.lift trustedHeight.increment
    throw (.nonIncreasingHeight untrustedHeight expected)

/-- `is_matching_chain_id`. -/
def isMatchingChainId (untrustedChainId trustedChainId : ChainId) :
    Except VerificationError Unit :=
  ensure (untrustedChainId = trustedChainId)
    (.chainIdMismatch untrustedChainId.id trustedChainId.id)

/-- `has_sufficient_validators_and_signers_overlap`. -/
def hasSufficientValidatorsAndSignersOverlap (calculator : Signature.Verifier) (P : Prost)
    (untrustedSh : SignedHeader) (trustedValidators : Validator.Set)
    (trustThreshold : TrustThresholdFraction) (untrustedValidators : Validator.Set) :
    ExceptT VerificationError Option Unit :=
  checkEnoughTrustAndSigners calculator P untrustedSh trustedValidators trustThreshold
    untrustedValidators

/-- `has_sufficient_signers_overlap`. -/
def hasSufficientSignersOverlap (calculator : Signature.Verifier) (P : Prost)
    (untrustedSh : SignedHeader) (untrustedValidators : Validator.Set) :
    ExceptT VerificationError Option Unit :=
  checkSignersOverlap calculator P untrustedSh untrustedValidators

/-- `valid_next_validator_set`. -/
def validNextValidatorSet (untrustedValidatorsHash trustedNextValidatorsHash : Hash) :
    Except VerificationError Unit :=
  ensure (trustedNextValidatorsHash = untrustedValidatorsHash)
    (.invalidNextValidatorSet untrustedValidatorsHash trustedNextValidatorsHash)

end VerificationPredicates

/-! ## The conditions the checks decide -/

/-- What the commit validator checks: an entry that is not absent, one entry per validator, and
a validator of the set for every entry that is not absent. -/
@[mk_iff] structure CommitValid (sh : SignedHeader) (vals : Validator.Set) : Prop where
  hasSignature : ∃ cs ∈ sh.commit.signatures, cs.isAbsent = false
  length_eq : sh.commit.signatures.length = vals.validators.length
  signersKnown : ∀ cs ∈ sh.commit.signatures, ∀ a, cs.validatorAddress = some a →
    ∃ v ∈ vals.validators, v.address = a

/-- What `verify_validator_sets` checks: the header commits to the validators (and to the next
validators, when they are given), the commit is for the header, and the commit is valid. -/
@[mk_iff] structure ValidatorSetsValid (H : MerkleHash) (P : Prost) (untrusted : UntrustedBlockState) :
    Prop where
  validatorsHash : untrusted.signedHeader.header.validatorsHash = untrusted.validators.hashWith H P
  nextValidatorsHash : ∀ n, untrusted.nextValidators = some n →
    untrusted.signedHeader.header.nextValidatorsHash = n.hashWith H P
  commitHash : untrusted.signedHeader.header.hashWith H P = untrusted.signedHeader.commit.blockId.hash
  commit : CommitValid untrusted.signedHeader untrusted.validators

/-- What `validate_against_trusted` checks: the trusted block has not expired, time and height
increase, the chain is the same, and an adjacent header carries the trusted next validators. -/
@[mk_iff] structure TrustedStateValid (untrusted : UntrustedBlockState) (trusted : TrustedBlockState)
    (options : Options) (now : Time) : Prop where
  withinTrustPeriod : ∃ expiresAt, trusted.headerTime.add options.trustingPeriod = .ok expiresAt ∧
    now < expiresAt
  monotonicBftTime : trusted.headerTime < untrusted.signedHeader.header.time
  chainId : untrusted.signedHeader.header.chainId = trusted.chainId
  monotonicHeight : trusted.height < untrusted.height
  adjacentValidators : untrusted.height.value = trusted.height.value + 1 →
    untrusted.signedHeader.header.validatorsHash = trusted.nextValidatorsHash

/-- What `check_header_is_from_past` checks: the header is older than `now` plus the clock drift. -/
def HeaderFromPast (untrusted : UntrustedBlockState) (options : Options) (now : Time) : Prop :=
  ∃ drifted, now.add options.clockDrift = .ok drifted ∧ untrusted.signedHeader.header.time < drifted

/-- Every condition of the verification spec on an update header but the voting power ones. -/
@[mk_iff] structure UpdateHeaderValid (H : MerkleHash) (P : Prost) (untrusted : UntrustedBlockState)
    (trusted : TrustedBlockState) (options : Options) (now : Time) : Prop where
  validatorSets : ValidatorSetsValid H P untrusted
  trustedState : TrustedStateValid untrusted trusted options now
  fromPast : HeaderFromPast untrusted options now

namespace VerificationPredicates

theorem validateFull_eq_ok {sh : SignedHeader} {vals : Validator.Set} :
    CommitValidator.validateFull sh vals = .ok () ↔
      ∀ cs ∈ sh.commit.signatures, ∀ a, cs.validatorAddress = some a →
        ∃ v ∈ vals.validators, v.address = a := by
  unfold CommitValidator.validateFull
  rw [List.forM_eq_forM, forM_eq_ok]
  refine forall₂_congr fun cs _ => ?_
  -- an entry that is not absent is looked up by its address
  have hlookup : ∀ a, ((if (vals.validator a).isNone = true then
        throw (VerificationError.faultySigner a vals) else pure ()) : Except VerificationError Unit) =
          .ok () ↔ ∃ v ∈ vals.validators, v.address = a := by
    intro a
    have hfind : (vals.validator a).isNone = false ↔ ∃ v ∈ vals.validators, v.address = a := by
      simp [Validator.Set.validator]
    rw [← hfind]
    cases (vals.validator a).isNone <;> simp
  rcases cs with _ | ⟨a, ts, s⟩ | ⟨a, ts, s⟩
  · simp [CommitSig.validatorAddress]
  · simpa [CommitSig.validatorAddress] using hlookup a
  · simpa [CommitSig.validatorAddress] using hlookup a

theorem validCommit_eq_ok {sh : SignedHeader} {vals : Validator.Set} :
    validCommit sh vals = .ok () ↔ CommitValid sh vals := by
  rw [commitValid_iff, ← validateFull_eq_ok]
  unfold validCommit CommitValidator.validate
  by_cases hsig : ∃ cs ∈ sh.commit.signatures, cs.isAbsent = false
  · have hany : sh.commit.signatures.any (fun cs => !cs.isAbsent) = true := by simpa using hsig
    by_cases hlen : sh.commit.signatures.length = vals.validators.length
    · simp [hany, hlen, hsig]
    · simp [hany, hlen]
  · have hany : sh.commit.signatures.any (fun cs => !cs.isAbsent) = false := by simpa using hsig
    simp [hany, hsig]

/-- The commit validator never reports `NotEnoughTrust`. -/
theorem validCommit_ne_notEnoughTrust {sh : SignedHeader} {vals : Validator.Set}
    (t : VotingPowerTally) : validCommit sh vals ≠ .error (.notEnoughTrust t) := by
  intro h
  unfold validCommit at h
  rcases hv : CommitValidator.validate sh vals with e | ⟨⟩
  · -- the basic validation fails with its own two errors
    rw [hv, error_bind] at h
    cases h
    unfold CommitValidator.validate at hv
    dsimp only at hv
    split at hv
    · cases hv
    · split at hv <;> cases hv
  · -- a lookup fails with `FaultySigner`
    rw [hv, ok_bind] at h
    unfold CommitValidator.validateFull at h
    rw [List.forM_eq_forM] at h
    obtain ⟨cs, -, hcs⟩ := forM_eq_error h
    rcases cs with _ | ⟨a, ts, s⟩ | ⟨a, ts, s⟩
    · cases hcs
    all_goals
      dsimp only at hcs
      split at hcs <;> cases hcs

theorem isWithinTrustPeriod_eq_ok {trustedHeaderTime : Time} {trustingPeriod : Duration}
    {now : Time} :
    isWithinTrustPeriod trustedHeaderTime trustingPeriod now = .ok () ↔
      ∃ expiresAt, trustedHeaderTime.add trustingPeriod = .ok expiresAt ∧ now < expiresAt := by
  unfold isWithinTrustPeriod
  cases trustedHeaderTime.add trustingPeriod <;> simp [Except.mapError]

theorem isHeaderFromPast_eq_ok {untrustedHeaderTime : Time} {clockDrift : Duration} {now : Time} :
    isHeaderFromPast untrustedHeaderTime clockDrift now = .ok () ↔
      ∃ drifted, now.add clockDrift = .ok drifted ∧ untrustedHeaderTime < drifted := by
  unfold isHeaderFromPast
  cases now.add clockDrift <;> simp [Except.mapError]

theorem isWithinTrustPeriod_ne_notEnoughTrust {trustedHeaderTime : Time}
    {trustingPeriod : Duration} {now : Time} (t : VotingPowerTally) :
    isWithinTrustPeriod trustedHeaderTime trustingPeriod now ≠ .error (.notEnoughTrust t) := by
  unfold isWithinTrustPeriod
  cases trustedHeaderTime.add trustingPeriod <;> simp [Except.mapError]

theorem isHeaderFromPast_ne_notEnoughTrust {untrustedHeaderTime : Time} {clockDrift : Duration}
    {now : Time} (t : VotingPowerTally) :
    isHeaderFromPast untrustedHeaderTime clockDrift now ≠ .error (.notEnoughTrust t) := by
  unfold isHeaderFromPast
  cases now.add clockDrift <;> simp [Except.mapError]

theorem isMonotonicHeight_run_eq_ok {untrustedHeight trustedHeight : Height} :
    (isMonotonicHeight untrustedHeight trustedHeight).run = some (.ok ()) ↔
      trustedHeight < untrustedHeight := by
  unfold isMonotonicHeight
  split
  · next h => simpa using h
  · next h =>
    simp only [h, iff_false]
    intro h'
    obtain ⟨_, -, h'⟩ := run_bind_eq_ok.mp h'
    cases h'

/-- `is_monotonic_height` fails with `NonIncreasingHeight`, if it does not panic. -/
theorem isMonotonicHeight_run_eq_error {untrustedHeight trustedHeight : Height}
    {e : VerificationError}
    (h : (isMonotonicHeight untrustedHeight trustedHeight).run = some (.error e)) :
    ∃ expected, e = .nonIncreasingHeight untrustedHeight expected := by
  unfold isMonotonicHeight at h
  split at h
  · cases h
  · rcases run_bind_eq_error.mp h with h | ⟨expected, -, h⟩
    · simp at h
    · cases h
      exact ⟨expected, rfl⟩

/-- `is_monotonic_height` panics only past the last height. -/
theorem isMonotonicHeight_run_isSome {untrustedHeight trustedHeight : Height}
    (hlt : trustedHeight.value + 1 < i64Bound) :
    (isMonotonicHeight untrustedHeight trustedHeight).run.isSome := by
  have hinc : trustedHeight.increment = some ⟨_, hlt⟩ := Height.increment_eq_some.mpr rfl
  unfold isMonotonicHeight
  split
  · rfl
  · simp [hinc, ExceptT.run_bind, ExceptT.lift]

end VerificationPredicates

end Verifier

end Tendermint
