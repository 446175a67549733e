import Tendermint.Types.Block
import Tendermint.Types.TrustThreshold
import Tendermint.Types.Validator

/-!
# Light-client verifier types

The data of `tendermint-light-client-verifier` (`types.rs`, `options.rs`, `errors.rs`, and the tally
struct of `operations/voting_power.rs`): light blocks and the two views of them the verifier takes,
the verification options, the errors, the verdict and its conversion from a `Result`, and the
statuses of the light store.
-/

namespace Tendermint

namespace Verifier

/-- `VotingPowerTally`. -/
structure VotingPowerTally where
  total : UInt64
  tallied : UInt64
  trustThreshold : TrustThresholdFraction
deriving DecidableEq

/-- `VerificationError` (its detail; the tracer of `flex_error` carries nothing). -/
inductive VerificationError
  | tendermint (e : Error)
  | headerFromTheFuture (headerTime now : Time) (maxClockDrift : Duration)
  | notEnoughTrust (tally : VotingPowerTally)
  | insufficientSignersOverlap (tally : VotingPowerTally)
  | duplicateValidator (address : AccountId)
  | missingSignature
  | invalidSignature (signature : Bytes) (validator : Validator.Info) (signBytes : Bytes)
  | invalidCommitValue (headerHash commitHash : Hash)
  | invalidNextValidatorSet (headerNextValidatorsHash nextValidatorsHash : Hash)
  | invalidValidatorSet (headerValidatorsHash validatorsHash : Hash)
  | nonIncreasingHeight (got expected : Height)
  | chainIdMismatch (got expected : String)
  | nonMonotonicBftTime (headerBftTime trustedHeaderBftTime : Time)
  | notWithinTrustPeriod (expiresAt now : Time)
  | noSignatureForCommit
  | mismatchPreCommitLength (preCommitLength validatorLength : Nat)
  | faultySigner (signer : AccountId) (validatorSet : Validator.Set)
deriving DecidableEq

/-- `ErrorExt::not_enough_trust`. -/
def VerificationError.notEnoughTrust? : VerificationError → Option VotingPowerTally
  | notEnoughTrust tally => some tally
  | _ => none

/-- `Verdict`. -/
inductive Verdict
  | success
  | notEnoughTrust (tally : VotingPowerTally)
  | invalid (e : VerificationError)
deriving DecidableEq

/-- `From<Result<(), VerificationError>> for Verdict`: only `NotEnoughTrust` escapes `Invalid`. -/
def Verdict.ofResult : Except VerificationError Unit → Verdict
  | .ok () => success
  | .error e =>
    match e.notEnoughTrust? with
    | some tally => notEnoughTrust tally
    | none => invalid e

/-- `Options`. -/
structure Options where
  trustThreshold : TrustThresholdFraction
  trustingPeriod : Duration
  clockDrift : Duration
deriving DecidableEq

/-- `PeerId`. -/
abbrev PeerId := NodeId

/-- `LightBlock`. -/
structure LightBlock where
  signedHeader : SignedHeader
  validators : Validator.Set
  nextValidators : Validator.Set
  provider : PeerId
deriving DecidableEq

/-- `TrustedBlockState`. -/
structure TrustedBlockState where
  chainId : ChainId
  headerTime : Time
  height : Height
  nextValidators : Validator.Set
  nextValidatorsHash : Hash

/-- `UntrustedBlockState`. -/
structure UntrustedBlockState where
  signedHeader : SignedHeader
  validators : Validator.Set
  nextValidators : Option Validator.Set

/-- `UntrustedBlockState::height`. -/
def UntrustedBlockState.height (u : UntrustedBlockState) : Height :=
  u.signedHeader.header.height

namespace LightBlock

/-- `LightBlock::height`. -/
def height (b : LightBlock) : Height := b.signedHeader.header.height

/-- `LightBlock::time`. -/
def time (b : LightBlock) : Time := b.signedHeader.header.time

/-- `LightBlock::as_trusted_state`. -/
def asTrustedState (b : LightBlock) : TrustedBlockState where
  chainId := b.signedHeader.header.chainId
  headerTime := b.signedHeader.header.time
  height := b.signedHeader.header.height
  nextValidators := b.nextValidators
  nextValidatorsHash := b.signedHeader.header.nextValidatorsHash

/-- `LightBlock::as_untrusted_state`. -/
def asUntrustedState (b : LightBlock) : UntrustedBlockState where
  signedHeader := b.signedHeader
  validators := b.validators
  nextValidators := some b.nextValidators

end LightBlock

/-- `Status`, in the order of its derived `Ord`. -/
inductive Status
  | failed
  | unverified
  | verified
  | trusted
deriving DecidableEq, Repr

namespace Status

/-- The rank of a status in the derived order. -/
def rank : Status → Nat
  | failed => 0
  | unverified => 1
  | verified => 2
  | trusted => 3

theorem rank_injective : Function.Injective rank := by
  intro a b h
  cases a <;> cases b <;> first | rfl | cases h

instance : LinearOrder Status := LinearOrder.lift' rank rank_injective

/-- `Status::most_trusted`. -/
def mostTrusted (a b : Status) : Status := max a b

/-- `Status::iter`: every status, in the order of the source's slice. -/
def iter : List Status := [unverified, verified, trusted, failed]

end Status

end Verifier

end Tendermint
