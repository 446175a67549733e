import Tendermint.Detector.Evidence

/-!
# Evidence on the wire

The evidence of `evidence.rs`, of a duplicate vote or of a light client attack, and its protobuf
conversions, which the node and the light client detector exchange. Each conversion is written by
hand over the conversions of the parts: votes (`vote.rs`), signed headers (`block/signed_header.rs`,
`block/commit.rs`), validator sets and validators (`validator.rs`).

`From<DuplicateVoteEvidence> for raw::DuplicateVoteEvidence` writes the field `validator_power` from
`total_voting_power`, so the validator power does not come back: decoding an encoded duplicate vote
evidence gives it with the total voting power in both fields, once its votes are normalised as the
vote decoder normalises them (`DuplicateVoteEvidence.tryFromRaw_toRaw`). The evidence of a light
client attack comes back whenever its parts do (`LightClientAttackEvidence.tryFromRaw_toRaw`).
-/

namespace Tendermint

namespace Detector

/-- `evidence::DuplicateVoteEvidence`. -/
structure DuplicateVoteEvidence where
  voteA : Vote
  voteB : Vote
  totalVotingPower : Power
  validatorPower : Power
  timestamp : Time

/-- `evidence::Evidence`. -/
inductive Evidence
  | duplicateVote (ev : DuplicateVoteEvidence)
  | lightClientAttack (ev : LightClientAttackEvidence)

/-- `types::DuplicateVoteEvidence`. -/
structure RawDuplicateVoteEvidence where
  voteA : Option RawVote
  voteB : Option RawVote
  totalVotingPower : Int
  validatorPower : Int
  timestamp : Option Timestamp

/-- `types::LightBlock`. -/
structure RawLightBlock where
  signedHeader : Option RawSignedHeader
  validatorSet : Option RawValidatorSet

/-- `types::LightClientAttackEvidence`. -/
structure RawLightClientAttackEvidence where
  conflictingBlock : Option RawLightBlock
  commonHeight : Int
  byzantineValidators : List RawValidator
  totalVotingPower : Int
  timestamp : Option Timestamp

/-- `types::evidence::Sum`. -/
inductive RawEvidenceSum
  | duplicateVoteEvidence (ev : RawDuplicateVoteEvidence)
  | lightClientAttackEvidence (ev : RawLightClientAttackEvidence)

/-- `types::Evidence`, whose oneof may be unset. -/
structure RawEvidence where
  sum : Option RawEvidenceSum

namespace DuplicateVoteEvidence

/-- `TryFrom<raw::DuplicateVoteEvidence> for DuplicateVoteEvidence`. -/
def tryFromRaw (version : ProtoVersion) (value : RawDuplicateVoteEvidence) :
    Except Error DuplicateVoteEvidence := do
  let voteA ← Rust.okOr value.voteA .missingEvidence
  let voteA ← Vote.tryFromRaw version voteA
  let voteB ← Rust.okOr value.voteB .missingEvidence
  let voteB ← Vote.tryFromRaw version voteB
  let totalVotingPower ← Power.tryFromI64 value.totalVotingPower
  let validatorPower ← Power.tryFromI64 value.validatorPower
  let timestamp ← Time.tryFromRequired value.timestamp
  pure { voteA, voteB, totalVotingPower, validatorPower, timestamp }

/-- `From<DuplicateVoteEvidence> for raw::DuplicateVoteEvidence`: `validator_power` is written from
`total_voting_power`. -/
def toRaw (version : ProtoVersion) (value : DuplicateVoteEvidence) : RawDuplicateVoteEvidence where
  voteA := some (value.voteA.toRaw version)
  voteB := some (value.voteB.toRaw version)
  totalVotingPower := value.totalVotingPower.toI64
  validatorPower := value.totalVotingPower.toI64
  timestamp := some value.timestamp.toTimestamp

/-- Decoding an encoded duplicate vote evidence fails on a vote without a timestamp, and otherwise
gives the evidence back with its votes normalised and the total voting power as its validator
power. -/
theorem tryFromRaw_toRaw (version : ProtoVersion) (ev : DuplicateVoteEvidence) :
    tryFromRaw version (toRaw version ev) =
      if ev.voteA.timestamp.isNone ∨ ev.voteB.timestamp.isNone then .error .missingTimestamp
      else .ok { ev with voteA := ev.voteA.normalize version, voteB := ev.voteB.normalize version,
                         validatorPower := ev.totalVotingPower } := by
  simp only [tryFromRaw, toRaw, Rust.okOr_some, Rust.ok_bind, Vote.tryFromRaw_toRaw]
  -- the two votes are decoded in turn, and the first one without a timestamp stops the decoding
  by_cases ha : ev.voteA.timestamp.isNone
  · rw [if_pos ha, if_pos (Or.inl ha), Rust.error_bind]
  · by_cases hb : ev.voteB.timestamp.isNone
    · rw [if_pos hb, if_pos (Or.inr hb), if_neg ha, Rust.ok_bind, Rust.error_bind]
    · rw [if_neg ha, if_neg hb, if_neg (not_or.mpr ⟨ha, hb⟩), Rust.ok_bind, Rust.ok_bind,
        Power.tryFromI64_toI64, Rust.ok_bind, Rust.ok_bind, Time.tryFromRequired_toTimestamp,
        Rust.ok_bind]
      rfl

end DuplicateVoteEvidence

namespace ConflictingBlock

/-- `TryFrom<raw::LightBlock> for ConflictingBlock`. -/
def tryFromRaw (K : KeyCrypto) (value : RawLightBlock) : Except Error ConflictingBlock := do
  let signedHeader ← Rust.okOr value.signedHeader .missingEvidence
  let signedHeader ← SignedHeader.tryFromRaw signedHeader
  let validatorSet ← Rust.okOr value.validatorSet .missingEvidence
  let validatorSet ← Validator.Set.tryFromRaw K validatorSet
  pure ⟨signedHeader, validatorSet⟩

/-- `From<ConflictingBlock> for raw::LightBlock`. -/
def toRaw (value : ConflictingBlock) : RawLightBlock :=
  ⟨some value.signedHeader.toRaw, some value.validatorSet.toRaw⟩

/-- What the encoding of a conflicting block keeps: a header that is normalised and is not a first
block with a last block id, of the height of its commit, whose votes carry their signatures; and a
canonical validator set of validators that raw validators keep. -/
structure Encodable (K : KeyCrypto) (cb : ConflictingBlock) : Prop where
  header_normalize : cb.signedHeader.header.normalize = cb.signedHeader.header
  first_header : cb.signedHeader.header.height.value = 1 → cb.signedHeader.header.lastBlockId = none
  signed : ∀ s ∈ cb.signedHeader.commit.signatures, s.Signed
  height_eq : cb.signedHeader.header.height = cb.signedHeader.commit.height
  canonical : cb.validatorSet.Canonical
  validators : ∀ v ∈ cb.validatorSet.validators, v.Encodable K
  proposer : ∀ v ∈ cb.validatorSet.proposer, v.Encodable K

theorem tryFromRaw_toRaw {K : KeyCrypto} {cb : ConflictingBlock} (h : cb.Encodable K) :
    tryFromRaw K cb.toRaw = .ok cb := by
  simp only [tryFromRaw, toRaw, Rust.okOr_some, Rust.ok_bind,
    SignedHeader.tryFromRaw_toRaw h.header_normalize h.first_header h.signed h.height_eq,
    Validator.Set.tryFromRaw_toRaw h.canonical h.validators h.proposer]
  rfl

end ConflictingBlock

namespace LightClientAttackEvidence

/-- `TryFrom<raw::LightClientAttackEvidence> for LightClientAttackEvidence`. -/
def tryFromRaw (K : KeyCrypto) (ev : RawLightClientAttackEvidence) :
    Except Error LightClientAttackEvidence := do
  let conflictingBlock ← Rust.okOr ev.conflictingBlock .missingEvidence
  let conflictingBlock ← ConflictingBlock.tryFromRaw K conflictingBlock
  let commonHeight ← Height.tryFromI64 ev.commonHeight
  let byzantineValidators ← ev.byzantineValidators.mapM (Validator.Info.tryFromRaw K)
  let totalVotingPower ← Power.tryFromI64 ev.totalVotingPower
  let timestamp ← Time.tryFromRequired ev.timestamp
  pure { conflictingBlock, commonHeight, byzantineValidators, totalVotingPower, timestamp }

/-- `From<LightClientAttackEvidence> for raw::LightClientAttackEvidence`. -/
def toRaw (ev : LightClientAttackEvidence) : RawLightClientAttackEvidence where
  conflictingBlock := some ev.conflictingBlock.toRaw
  commonHeight := ev.commonHeight.toI64
  byzantineValidators := ev.byzantineValidators.map Validator.Info.toRaw
  totalVotingPower := ev.totalVotingPower.toI64
  timestamp := some ev.timestamp.toTimestamp

/-- What the encoding of a light client attack keeps: its conflicting block, and byzantine
validators that raw validators keep. -/
structure Encodable (K : KeyCrypto) (ev : LightClientAttackEvidence) : Prop where
  conflictingBlock : ev.conflictingBlock.Encodable K
  byzantineValidators : ∀ v ∈ ev.byzantineValidators, v.Encodable K

/-- The byzantine validators come back in their order, as every other field does. -/
theorem tryFromRaw_toRaw {K : KeyCrypto} {ev : LightClientAttackEvidence} (h : ev.Encodable K) :
    tryFromRaw K ev.toRaw = .ok ev := by
  have hbyz := Rust.mapM_map_of_forall fun v hv =>
    Validator.Info.tryFromRaw_toRaw (h.byzantineValidators v hv)
  simp only [tryFromRaw, toRaw, Rust.okOr_some, Rust.ok_bind,
    ConflictingBlock.tryFromRaw_toRaw h.conflictingBlock, Height.tryFromI64_toI64, hbyz,
    Power.tryFromI64_toI64, Time.tryFromRequired_toTimestamp]
  rfl

end LightClientAttackEvidence

namespace Evidence

/-- `TryFrom<raw::Evidence> for Evidence`. -/
def tryFromRaw (K : KeyCrypto) (version : ProtoVersion) (value : RawEvidence) :
    Except Error Evidence := do
  let sum ← Rust.okOr value.sum .invalidEvidence
  match sum with
  | .duplicateVoteEvidence ev => duplicateVote <$> DuplicateVoteEvidence.tryFromRaw version ev
  | .lightClientAttackEvidence ev => lightClientAttack <$> LightClientAttackEvidence.tryFromRaw K ev

/-- `From<Evidence> for raw::Evidence`. -/
def toRaw (version : ProtoVersion) : Evidence → RawEvidence
  | duplicateVote ev => ⟨some (.duplicateVoteEvidence (ev.toRaw version))⟩
  | lightClientAttack ev => ⟨some (.lightClientAttackEvidence ev.toRaw)⟩

end Evidence

/-- Evidence through its protobuf encoding, in each protocol version: a duplicate vote evidence
comes back with the total voting power as its validator power (and its votes normalised, or the
error of a vote without a timestamp); a light client attack comes back as it was whenever its parts
can. -/
theorem evidence_roundtrip_overwrites_validator_power (K : KeyCrypto) (version : ProtoVersion) :
    (∀ ev : DuplicateVoteEvidence,
      Evidence.tryFromRaw K version (Evidence.toRaw version (.duplicateVote ev)) =
        if ev.voteA.timestamp.isNone ∨ ev.voteB.timestamp.isNone then .error .missingTimestamp
        else .ok (.duplicateVote { ev with
          voteA := ev.voteA.normalize version, voteB := ev.voteB.normalize version,
          validatorPower := ev.totalVotingPower })) ∧
    ∀ ev : LightClientAttackEvidence, ev.Encodable K →
      Evidence.tryFromRaw K version (Evidence.toRaw version (.lightClientAttack ev)) =
        .ok (.lightClientAttack ev) := by
  refine ⟨fun ev => ?_, fun ev h => ?_⟩
  · simp only [Evidence.tryFromRaw, Evidence.toRaw, Rust.okOr_some, Rust.ok_bind,
      DuplicateVoteEvidence.tryFromRaw_toRaw]
    split
    · rfl
    · rfl
  · simp only [Evidence.tryFromRaw, Evidence.toRaw, Rust.okOr_some, Rust.ok_bind,
      LightClientAttackEvidence.tryFromRaw_toRaw h]
    rfl

namespace Attack

/-- Digests that are zero on every input, and a SEC1 decoder that takes any 33 bytes. -/
def keyCrypto : KeyCrypto :=
  ⟨Sha256.zero, fun _ => List.Vector.replicate 20 0,
    fun b => if h : b.length = 33 then some ⟨b, h⟩ else none⟩

/-- A prevote at height two for no block, by the validator of power two. -/
def vote : Vote :=
  ⟨.prevote, .fromU8 2, .fromU8 0, none, some .unixEpoch, validatorA.address,
    ⟨0, Nat.two_pow_pos 31⟩, none, [], none⟩

/-- Evidence of the prevote cast twice, by a validator of power one out of a total of two. -/
def duplicateVote : DuplicateVoteEvidence := ⟨vote, vote, .fromU8 2, .fromU8 1, .unixEpoch⟩

/-- The attack at height two of a header committed by the validator of power two alone, who is
listed as byzantine. -/
def evidence : LightClientAttackEvidence :=
  ⟨⟨signedHeader [.blockIdFlagCommit validatorA.address .unixEpoch
      (some ⟨List.Vector.replicate 64 0⟩)], ⟨[validatorA], none, .fromU8 2⟩⟩,
    .fromU8 1, [validatorA], .fromU8 2, .unixEpoch⟩

/-- The validator of power two has the address of its key under the zero digests. -/
theorem validatorA_encodable : validatorA.Encodable keyCrypto :=
  ⟨rfl, rfl, trivial⟩

end Attack

/-- The duplicate vote evidence comes back with a validator power of two instead of one, and the
attack comes back as it was. -/
theorem evidence_roundtrip_fails_on_distinct_powers :
    Evidence.tryFromRaw Attack.keyCrypto .v038 (Evidence.toRaw .v038
        (.duplicateVote Attack.duplicateVote)) ≠ .ok (.duplicateVote Attack.duplicateVote) ∧
      Evidence.tryFromRaw Attack.keyCrypto .v038 (Evidence.toRaw .v038
        (.lightClientAttack Attack.evidence)) = .ok (.lightClientAttack Attack.evidence) := by
  obtain ⟨hdup, hattack⟩ := evidence_roundtrip_overwrites_validator_power Attack.keyCrypto .v038
  have hvalidator : ∀ v ∈ [Attack.validatorA], v.Encodable Attack.keyCrypto := by
    intro v hv
    rw [List.mem_singleton.mp hv]
    exact Attack.validatorA_encodable
  refine ⟨?_, hattack _ ⟨⟨rfl, fun h => absurd h (by decide), ?_, rfl, ⟨?_, rfl, by decide⟩,
    hvalidator, fun _ hv => by cases hv⟩, hvalidator⟩⟩
  · rw [hdup, if_neg (by decide)]
    intro h
    have hpower := congrArg DuplicateVoteEvidence.validatorPower
      (Evidence.duplicateVote.inj (Except.ok.inj h))
    exact absurd hpower (by decide)
  · intro s hs
    rw [List.mem_singleton.mp hs]
    refine ⟨fun _ _ h => ?_, fun _ _ h => ?_⟩
    · cases h
    · cases h
  · exact List.pairwise_singleton _ _

end Detector

end Tendermint
