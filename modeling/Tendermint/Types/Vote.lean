import Tendermint.Types.Block

/-!
# Votes and their sign bytes

`vote.rs`, `vote/canonical_vote.rs` and `vote/validator_index.rs`: a vote, the canonical form in
which it is signed, and `SignedVote`, which pairs the canonical vote with the signer and the
signature. The sign bytes of a vote are the length-delimited protobuf encoding of its canonical
form; `prost` encodes, so the bytes are those of `Prost.canonicalVoteLengthDelimited`.
-/

namespace Tendermint

/-- `vote::Type`. -/
inductive VoteType
  | prevote
  | precommit
deriving DecidableEq, Repr

/-- `From<vote::Type> for i32`. -/
def VoteType.toI32 : VoteType → Int
  | prevote => 1
  | precommit => 2

/-- `TryFrom<i32> for vote::Type`. -/
def VoteType.tryFromI32 (value : Int) : Except Error VoteType :=
  if value = 1 then .ok .prevote
  else if value = 2 then .ok .precommit
  else .error .invalidMessageType

@[simp] theorem VoteType.tryFromI32_toI32 (t : VoteType) : tryFromI32 t.toI32 = .ok t := by
  cases t with
  | prevote => rfl
  | precommit => rfl

/-- `vote::ValidatorIndex`: a `u32` of at most `i32::MAX`. -/
structure ValidatorIndex where
  value : Nat
  lt : value < 2 ^ 31

/-- `TryFrom<usize> for ValidatorIndex`: through `i32`, so an index past `i32::MAX` is an
`IntegerOverflow`. -/
def ValidatorIndex.tryFromUsize (value : Nat) : Except Error ValidatorIndex :=
  if h : value < 2 ^ 31 then .ok ⟨value, h⟩ else .error .integerOverflow

/-- `TryFrom<i32> for ValidatorIndex`: the conversion to `u32` fails on a negative value, with
`Error::negative_validator_index`; an `i32` is at most `i32::MAX = 2 ^ 31 - 1`. -/
def ValidatorIndex.tryFromI32 (value : Int) : Except Error ValidatorIndex :=
  if h : 0 ≤ value ∧ value ≤ 2 ^ 31 - 1 then .ok ⟨value.toNat, by omega⟩
  else .error .negativeValidatorIndex

theorem ValidatorIndex.tryFromI32_value (i : ValidatorIndex) :
    ValidatorIndex.tryFromI32 i.value = .ok i := by
  have hlt := i.lt
  unfold ValidatorIndex.tryFromI32
  rw [dif_pos (by omega)]
  simp

/-- `Vote`. The vote extension and its signature are fields of CometBFT 0.38; the conversions of
the earlier protocol versions neither write nor read them. -/
structure Vote where
  voteType : VoteType
  height : Height
  round : Round
  blockId : Option BlockId
  timestamp : Option Time
  validatorAddress : AccountId
  validatorIndex : ValidatorIndex
  signature : Option Signature
  extension : Bytes
  extensionSignature : Option Signature

/-- `types::Vote` of v0_38. The message of v0_34 and v0_37 has no extension fields; it is the one
whose extension fields are empty, and their decoders do not read them. -/
structure RawVote where
  type : Int
  height : Int
  round : Int
  blockId : Option RawBlockId
  timestamp : Option Timestamp
  validatorAddress : Bytes
  validatorIndex : Int
  signature : Bytes
  extension : Bytes
  extensionSignature : Bytes
deriving DecidableEq

namespace Vote

/-- `TryFrom<RawVote> for Vote` of each protocol version. -/
def tryFromRaw (version : ProtoVersion) (value : RawVote) : Except Error Vote := do
  if value.timestamp.isNone then throw .missingTimestamp
  let voteType ← VoteType.tryFromI32 value.type
  let height ← Height.tryFromI64 value.height
  let round ← Round.tryFromI32 value.round
  -- `block_id` can be nil in the Go implementation
  let blockId ← value.blockId.mapM BlockId.tryFromRaw
  let timestamp ← value.timestamp.mapM Time.tryFromTimestamp
  let validatorAddress ← AccountId.tryFromBytes value.validatorAddress
  let validatorIndex ← ValidatorIndex.tryFromI32 value.validatorIndex
  let signature ← Signature.new value.signature
  match version with
  | .v034 | .v037 =>
    pure { voteType, height, round, blockId := blockId.filter (· != default), timestamp,
           validatorAddress, validatorIndex, signature, extension := [], extensionSignature := none }
  | .v038 =>
    let extensionSignature ← Signature.new value.extensionSignature
    pure { voteType, height, round, blockId := blockId.filter (· != default), timestamp,
           validatorAddress, validatorIndex, signature, extension := value.extension,
           extensionSignature }

/-- `From<Vote> for RawVote` of each protocol version. -/
def toRaw (version : ProtoVersion) (value : Vote) : RawVote where
  type := value.voteType.toI32
  height := value.height.toI64
  round := value.round.value
  blockId := value.blockId.map BlockId.toRaw
  timestamp := value.timestamp.map Time.toTimestamp
  validatorAddress := value.validatorAddress.toBytes
  validatorIndex := value.validatorIndex.value
  signature := (value.signature.map Signature.intoBytes).getD []
  extension := match version with
    | .v034 | .v037 => []
    | .v038 => value.extension
  extensionSignature := match version with
    | .v034 | .v037 => []
    | .v038 => (value.extensionSignature.map Signature.intoBytes).getD []

/-- What decoding does to an encoded vote: the default block id is dropped, and so are the
extension fields in the versions that do not have them. -/
def normalize (version : ProtoVersion) (v : Vote) : Vote :=
  match version with
  | .v034 | .v037 =>
    { v with blockId := v.blockId.filter (· != default), extension := [],
             extensionSignature := none }
  | .v038 => { v with blockId := v.blockId.filter (· != default) }

/-- Decoding an encoded vote fails exactly on a vote without a timestamp, and otherwise gives the
vote back, normalised. -/
theorem tryFromRaw_toRaw (version : ProtoVersion) (v : Vote) :
    tryFromRaw version (toRaw version v) =
      if v.timestamp.isNone then .error .missingTimestamp else .ok (v.normalize version) := by
  by_cases ht : v.timestamp.isNone
  · simp only [tryFromRaw, toRaw, Option.isNone_map, ht, if_true, Rust.throw_eq_error,
      Rust.error_bind]
  · simp only [tryFromRaw, toRaw, Option.isNone_map, ht, Bool.false_eq_true, if_false,
      VoteType.tryFromI32_toI32,
      Height.tryFromI64_toI64, Round.tryFromI32_value, Header.mapM_tryFromRaw_toRaw,
      Time.mapM_tryFromTimestamp_map, AccountId.tryFromBytes_toBytes,
      ValidatorIndex.tryFromI32_value, Signature.new_getD_map_intoBytes, Rust.ok_bind]
    cases version with
    | v034 => rfl
    | v037 => rfl
    | v038 =>
      -- the extension signature is read back last
      simp only [Signature.new_getD_map_intoBytes, Rust.ok_bind]
      rfl

end Vote

/-- `CanonicalVote`. -/
structure CanonicalVote where
  voteType : VoteType
  height : Height
  round : Round
  blockId : Option BlockId
  timestamp : Option Time
  chainId : ChainId
deriving DecidableEq

namespace CanonicalVote

/-- `CanonicalVote::new`. -/
def new (vote : Vote) (chainId : ChainId) : CanonicalVote :=
  ⟨vote.voteType, vote.height, vote.round, vote.blockId, vote.timestamp, chainId⟩

/-- `From<CanonicalVote> for RawCanonicalVote`: the default block id is left out. -/
def toRaw (value : CanonicalVote) : RawCanonicalVote where
  type := value.voteType.toI32
  height := value.height.toI64
  round := value.round.value
  blockId := (value.blockId.filter (· != default)).map BlockId.toRawCanonical
  timestamp := value.timestamp.map Time.toTimestamp
  chainId := value.chainId.id

/-- `TryFrom<RawCanonicalVote> for CanonicalVote`: the timestamp is required although the field is
optional, and a block id of empty hash is dropped. -/
def tryFromRaw (value : RawCanonicalVote) : Except Error CanonicalVote := do
  if value.timestamp.isNone then throw .missingTimestamp
  let _ ← tryIntoI32 value.round
  -- if the hash is empty in the block id, the block id is empty
  let blockId := value.blockId.filter fun i => !i.hash.isEmpty
  let voteType ← VoteType.tryFromI32 value.type
  let height ← Height.tryFromI64 value.height
  let round ← Round.tryFromI32 value.round
  let blockId ← blockId.mapM BlockId.tryFromRawCanonical
  let timestamp ← value.timestamp.mapM Time.tryFromTimestamp
  let chainId ← ChainId.tryFrom value.chainId
  pure ⟨voteType, height, round, blockId, timestamp, chainId⟩

/-- Decoding an encoded canonical vote fails without a timestamp, and otherwise gives it back
without a block id of empty hash. -/
theorem tryFromRaw_toRaw (c : CanonicalVote) :
    tryFromRaw c.toRaw = if c.timestamp.isNone then .error .missingTimestamp
      else .ok { c with blockId := c.blockId.filter (·.hash != Hash.none) } := by
  obtain ⟨voteType, height, round, blockId, timestamp, chainId⟩ := c
  cases timestamp with
  | none =>
    simp only [tryFromRaw, toRaw, Option.map_none, Option.isNone_none, if_true,
      Rust.throw_eq_error, Rust.error_bind]
  | some t =>
    simp only [tryFromRaw, toRaw, Option.isNone_some, Bool.false_eq_true, if_false,
      tryIntoI32_round, Rust.ok_bind, VoteType.tryFromI32_toI32, Height.tryFromI64_toI64,
      Round.tryFromI32_value, BlockId.mapM_tryFromRawCanonical_filter, Option.map_some,
      Option.mapM_some, Time.tryFromTimestamp_toTimestamp, ChainId.tryFrom_id]
    rfl

/-- Without its block ids of empty hash, a canonical vote encodes as before exactly when such an id
is the default one. -/
theorem toRaw_filter_eq_iff (c : CanonicalVote) :
    { c with blockId := c.blockId.filter (·.hash != Hash.none) }.toRaw = c.toRaw ↔
      ∀ b ∈ c.blockId, b.hash = .none → b = default := by
  simp only [toRaw, RawCanonicalVote.mk.injEq, true_and, and_true]
  exact BlockId.map_toRawCanonical_filter_filter_iff c.blockId

end CanonicalVote

/-- `SignedVote`. -/
@[ext] structure SignedVote where
  vote : CanonicalVote
  validatorAddress : AccountId
  signature : Signature
deriving DecidableEq

namespace SignedVote

/-- `SignedVote::new`. -/
def new (vote : Vote) (chainId : ChainId) (validatorAddress : AccountId) (signature : Signature) :
    SignedVote :=
  ⟨CanonicalVote.new vote chainId, validatorAddress, signature⟩

/-- `SignedVote::from_vote`: `None` for a vote without a signature. -/
def fromVote (vote : Vote) (chainId : ChainId) : Option SignedVote :=
  vote.signature.map fun signature => new vote chainId vote.validatorAddress signature

/-- `SignedVote::validator_id`. -/
def validatorId (v : SignedVote) : AccountId := v.validatorAddress

@[simp] theorem validatorId_eq (v : SignedVote) : v.validatorId = v.validatorAddress := rfl

/-- `SignedVote::sign_bytes` (and `sign_bytes_into` a cleared buffer). -/
def signBytes (P : Prost) (v : SignedVote) : Bytes :=
  P.canonicalVoteLengthDelimited v.vote.toRaw

end SignedVote

end Tendermint
