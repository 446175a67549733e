import Tendermint.Types.Vote

/-!
# Proposals and the decoding of sign bytes

`proposal/msg_type.rs` and `proposal/canonical_proposal.rs`: the canonical form in which a proposal
is signed, and its protobuf conversions; and what decoding does to the sign bytes of a vote or a
proposal, which a remote signer decodes and encodes again.

The canonical encoders leave a block id out only when it is the default id, and the decoders drop
every block id of empty hash, so an id of empty hash with a part set header does not come back. The
vote decoder requires the timestamp, which the canonical vote holds as an `Option`. The proposal
decoder `unwrap`s the conversion of the chain id, so it panics on a raw proposal whose chain id does
not validate, after every other field has decoded (`tryFromRaw_toRaw_with`).
-/

namespace Tendermint

/-- `proposal::Type`. -/
inductive ProposalType
  | proposal
deriving DecidableEq

namespace ProposalType

/-- `From<proposal::Type> for i32`. -/
def toI32 : ProposalType → Int
  | proposal => 32

/-- `TryFrom<i32> for proposal::Type`. -/
def tryFromI32 (value : Int) : Except Error ProposalType :=
  if value = 32 then .ok .proposal else .error .invalidMessageType

@[simp] theorem tryFromI32_toI32 (t : ProposalType) : tryFromI32 t.toI32 = .ok t := by
  cases t
  rfl

end ProposalType

/-- `types::CanonicalProposal`. -/
structure RawCanonicalProposal where
  type : Int
  height : Int
  round : Int
  polRound : Int
  blockId : Option RawCanonicalBlockId
  timestamp : Option Timestamp
  chainId : String
deriving DecidableEq

/-- `CanonicalProposal`. -/
structure CanonicalProposal where
  msgType : ProposalType
  height : Height
  round : Round
  polRound : Option Round
  blockId : Option BlockId
  timestamp : Option Time
  chainId : ChainId
deriving DecidableEq

namespace CanonicalProposal

/-- `TryFrom<RawCanonicalProposal> for CanonicalProposal`. -/
def tryFromRaw (value : RawCanonicalProposal) : ExceptT Error Option CanonicalProposal := do
  if value.polRound < -1 then throw .negativePolRound
  let round ← Rust.result (tryIntoI32 value.round >>= Round.tryFromI32)
  let polRound ← Rust.result <|
    if value.polRound = -1 then pure none
    else some <$> (tryIntoI32 value.polRound >>= Round.tryFromI32)
  -- if the hash is empty in the block id, the block id is empty
  let blockId := value.blockId.filter fun i => !i.hash.isEmpty
  let msgType ← Rust.result (ProposalType.tryFromI32 value.type)
  let height ← Rust.result (Height.tryFromI64 value.height)
  let blockId ← Rust.result (blockId.mapM BlockId.tryFromRawCanonical)
  let timestamp ← Rust.result (value.timestamp.mapM Time.tryFromTimestamp)
  -- `ChainId::try_from(value.chain_id).unwrap()`
  let chainId ← ExceptT.lift (ChainId.tryFrom value.chainId).toOption
  pure ⟨msgType, height, round, polRound, blockId, timestamp, chainId⟩

/-- `From<CanonicalProposal> for RawCanonicalProposal`: the default block id is left out. -/
def toRaw (value : CanonicalProposal) : RawCanonicalProposal where
  type := value.msgType.toI32
  height := value.height.toI64
  round := value.round.value
  polRound := match value.polRound with
    | none => -1
    | some p => p.value
  blockId := (value.blockId.filter (· != default)).map BlockId.toRawCanonical
  timestamp := value.timestamp.map Time.toTimestamp
  chainId := value.chainId.id

/-- `Round::try_from(i32::try_from(round)?)` of an encoded round. -/
theorem tryIntoI32_bind_tryFromI32 (r : Round) :
    (tryIntoI32 r.value >>= Round.tryFromI32) = .ok r := by
  rw [tryIntoI32_round, Rust.ok_bind, Round.tryFromI32_value]

/-- Decoding an encoded proposal whose chain id is replaced: every field but the chain id decodes
back, a block id of empty hash being dropped, and the chain id's conversion decides between the
result and a panic. -/
theorem tryFromRaw_toRaw_with (p : CanonicalProposal) (chainId : String) :
    (tryFromRaw { p.toRaw with chainId := chainId }).run =
      (ChainId.tryFrom chainId).toOption.map fun c =>
        .ok { p with blockId := p.blockId.filter (·.hash != Hash.none), chainId := c } := by
  obtain ⟨msgType, height, round, polRound, blockId, timestamp, chainId'⟩ := p
  -- the POL round is written as `-1` or as the round, and read back by the same case split
  cases polRound with
  | none =>
    have hneg : ¬ (-1 : Int) < -1 := Int.lt_irrefl _
    simp only [tryFromRaw, toRaw, hneg, if_false, if_true, tryIntoI32_bind_tryFromI32,
      ProposalType.tryFromI32_toI32, Height.tryFromI64_toI64,
      BlockId.mapM_tryFromRawCanonical_filter, Time.mapM_tryFromTimestamp_map, Rust.pure_eq_ok,
      Rust.run_result_ok_bind, Rust.run_lift_bind_pure]
  | some r =>
    have hneg : ¬ (r.value : Int) < -1 := by omega
    have hnn : ¬ (r.value : Int) = -1 := by omega
    simp only [tryFromRaw, toRaw, hneg, hnn, if_false, tryIntoI32_bind_tryFromI32,
      ProposalType.tryFromI32_toI32, Height.tryFromI64_toI64,
      BlockId.mapM_tryFromRawCanonical_filter, Time.mapM_tryFromTimestamp_map, Rust.map_ok,
      Rust.run_result_ok_bind, Rust.run_lift_bind_pure]

theorem tryFromRaw_toRaw (p : CanonicalProposal) :
    (tryFromRaw p.toRaw).run = some (.ok { p with blockId := p.blockId.filter (·.hash != Hash.none) }) := by
  have h := tryFromRaw_toRaw_with p p.chainId.id
  rw [ChainId.tryFrom_id] at h
  exact h

/-- Without its block ids of empty hash, a canonical proposal encodes as before exactly when such an
id is the default one. -/
theorem toRaw_filter_eq_iff (p : CanonicalProposal) :
    { p with blockId := p.blockId.filter (·.hash != Hash.none) }.toRaw = p.toRaw ↔
      ∀ b ∈ p.blockId, b.hash = .none → b = default := by
  simp only [toRaw, RawCanonicalProposal.mk.injEq, true_and, and_true]
  exact BlockId.map_toRawCanonical_filter_filter_iff p.blockId

end CanonicalProposal

/-- The sign bytes of a vote survive decoding exactly when the vote carries a timestamp and has no
block id of empty hash other than the default one, and those of a proposal exactly when it has no
such block id; the proposal decoder panics on every encoded proposal whose chain id is replaced by
one that does not validate. -/
theorem canonical_sign_bytes_roundtrip_iff :
    (∀ c : CanonicalVote, (∃ c', CanonicalVote.tryFromRaw c.toRaw = .ok c' ∧ c'.toRaw = c.toRaw) ↔
      c.timestamp.isSome ∧ ∀ b ∈ c.blockId, b.hash = .none → b = default) ∧
    (∀ p : CanonicalProposal,
      (∃ p', (CanonicalProposal.tryFromRaw p.toRaw).run = some (.ok p') ∧ p'.toRaw = p.toRaw) ↔
        ∀ b ∈ p.blockId, b.hash = .none → b = default) ∧
    ∀ (p : CanonicalProposal) (chainId : String), ChainId.validate chainId ≠ .ok () →
      (CanonicalProposal.tryFromRaw { p.toRaw with chainId := chainId }).run = none := by
  refine ⟨fun c => ?_, fun p => ?_, fun p chainId h => ?_⟩
  · rw [CanonicalVote.tryFromRaw_toRaw]
    by_cases ht : c.timestamp.isNone
    · -- the decoder asks for the timestamp the encoder left out
      rw [if_pos ht]
      rw [Option.isNone_iff_eq_none] at ht
      simp [ht]
    · have hs : c.timestamp.isSome = true := by
        rw [Option.isNone_iff_eq_none] at ht
        exact Option.isSome_iff_ne_none.mpr ht
      rw [if_neg ht, hs, eq_self_iff_true, true_and, ← CanonicalVote.toRaw_filter_eq_iff]
      constructor
      · rintro ⟨c', h, heq⟩
        cases h
        exact heq
      · intro heq
        exact ⟨_, rfl, heq⟩
  · rw [CanonicalProposal.tryFromRaw_toRaw, ← CanonicalProposal.toRaw_filter_eq_iff]
    constructor
    · rintro ⟨p', h, heq⟩
      cases h
      exact heq
    · intro heq
      exact ⟨_, rfl, heq⟩
  · rw [CanonicalProposal.tryFromRaw_toRaw_with, ChainId.toOption_tryFrom_of_invalid h]
    rfl

namespace SignBytes

/-- The chain id of the headers of fixed values. -/
def chainId : ChainId := (Header.ofHashes (.fromU8 1) .unixEpoch .none .none).chainId

/-- A prevote for a block id of empty hash whose part set header is not empty. -/
def vote : CanonicalVote :=
  ⟨.prevote, .fromU8 1, .fromU8 0, some ⟨.none, ⟨1, .none⟩⟩, some .unixEpoch, chainId⟩

/-- A proposal for no block. -/
def proposal : CanonicalProposal := ⟨.proposal, .fromU8 1, .fromU8 0, none, none, none, chainId⟩

end SignBytes

/-- The prevote's block id does not come back, and the proposal with an empty chain id panics. -/
theorem canonical_sign_bytes_fail_on_fixed_inputs :
    (¬ ∃ c', CanonicalVote.tryFromRaw SignBytes.vote.toRaw = .ok c' ∧
        c'.toRaw = SignBytes.vote.toRaw) ∧
      (CanonicalProposal.tryFromRaw { SignBytes.proposal.toRaw with chainId := "" }).run = none := by
  obtain ⟨hvote, -, hpanic⟩ := canonical_sign_bytes_roundtrip_iff
  refine ⟨?_, hpanic _ "" (by decide)⟩
  rw [hvote]
  rintro ⟨-, h⟩
  exact absurd (h _ rfl rfl) (by decide)

end Tendermint
