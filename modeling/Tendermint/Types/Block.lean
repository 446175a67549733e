import Tendermint.Types.Crypto
import Tendermint.Types.Proto

/-!
# Blocks

The block types the light client verifies (`block/header.rs`, `block/commit_sig.rs`,
`block/commit.rs`, `block/signed_header.rs`, the `AppHash` of `hash.rs`): the header, its Merkle
hash over the protobuf encodings of its fourteen fields, its protobuf conversions, and the commit
that signs it.

The commit signatures' conversions (`TryFrom<RawCommitSig>`, `From<CommitSig>`) decode exactly the
well-formed raw signatures but for one check: the address of an absent vote is neither checked nor
kept (`commitSig_raw_roundtrip_up_to_absent_address`).

`tendermint_pb_modules!` expands the conversions once for each of the protocol versions
`v0_34`, `v0_37` and `v0_38` over raw messages with the same fields, so one raw header stands for
the three.
-/

namespace Tendermint

/-- `AppHash`: arbitrary bytes. -/
structure AppHash where
  value : Bytes
deriving DecidableEq

/-- `block::header::Version`. -/
structure Version where
  block : UInt64
  app : UInt64
deriving DecidableEq

/-- `From<Version> for RawConsensusVersion` (the converse `From` is the same field copy). -/
def Version.toRaw (v : Version) : RawConsensusVersion := ⟨v.block, v.app⟩

/-- `From<RawConsensusVersion> for Version`. -/
def Version.ofRaw (v : RawConsensusVersion) : Version := ⟨v.block, v.app⟩

/-- `block::Header`. -/
structure Header where
  version : Version
  chainId : ChainId
  height : Height
  time : Time
  lastBlockId : Option BlockId
  lastCommitHash : Option Hash
  dataHash : Option Hash
  validatorsHash : Hash
  nextValidatorsHash : Hash
  consensusHash : Hash
  appHash : AppHash
  lastResultsHash : Option Hash
  evidenceHash : Option Hash
  proposerAddress : AccountId
deriving DecidableEq

/-- `types::Header`. -/
structure RawHeader where
  version : Option RawConsensusVersion
  chainId : String
  height : Int
  time : Option Timestamp
  lastBlockId : Option RawBlockId
  lastCommitHash : Bytes
  dataHash : Bytes
  validatorsHash : Bytes
  nextValidatorsHash : Bytes
  consensusHash : Bytes
  appHash : Bytes
  lastResultsHash : Bytes
  evidenceHash : Bytes
  proposerAddress : Bytes
deriving DecidableEq

namespace Header

/-- The fourteen leaves of `Header::hash_with`, in the source's order. -/
def fieldsBytes (P : Prost) (h : Header) : List Bytes :=
  [P.consensusVersion h.version.toRaw,
   P.string h.chainId.id,
   P.int64 h.height.toI64,
   P.timestamp h.time.toTimestamp,
   P.blockId (h.lastBlockId.getD default).toRaw,
   P.bytes (h.lastCommitHash.getD default).toBytes,
   P.bytes (h.dataHash.getD default).toBytes,
   P.bytes h.validatorsHash.toBytes,
   P.bytes h.nextValidatorsHash.toBytes,
   P.bytes h.consensusHash.toBytes,
   P.bytes h.appHash.value,
   P.bytes (h.lastResultsHash.getD default).toBytes,
   P.bytes (h.evidenceHash.getD default).toBytes,
   P.bytes h.proposerAddress.toBytes]

/-- `Header::hash_with::<H>`. -/
def hashWith (H : MerkleHash) (P : Prost) (h : Header) : Hash :=
  .sha256 (simpleHashFromByteVectors H (h.fieldsBytes P))

/-- `From<Header> for RawHeader`. -/
def toRaw (value : Header) : RawHeader where
  version := some value.version.toRaw
  chainId := value.chainId.id
  height := value.height.toI64
  time := some value.time.toTimestamp
  lastBlockId := value.lastBlockId.map BlockId.toRaw
  lastCommitHash := (value.lastCommitHash.getD default).toBytes
  dataHash := (value.dataHash.getD default).toBytes
  validatorsHash := value.validatorsHash.toBytes
  nextValidatorsHash := value.nextValidatorsHash.toBytes
  consensusHash := value.consensusHash.toBytes
  appHash := value.appHash.value
  lastResultsHash := (value.lastResultsHash.getD default).toBytes
  evidenceHash := (value.evidenceHash.getD default).toBytes
  proposerAddress := value.proposerAddress.toBytes

/-- The optional hashes of `TryFrom<RawHeader>`: empty bytes are no hash. -/
def optionalHash (bytes : Bytes) : Except Error (Option Hash) :=
  if bytes.isEmpty then .ok none else some <$> Hash.tryFromBytes bytes

/-- `TryFrom<RawHeader> for Header`: the last block id is decoded and dropped when it is the
default id (Go's nil id), and a first block may not have one. -/
def tryFromRaw (value : RawHeader) : Except Error Header := do
  let lastBlockId ← value.lastBlockId.mapM BlockId.tryFromRaw
  let lastBlockId := lastBlockId.filter (· != default)
  let lastCommitHash ← optionalHash value.lastCommitHash
  let lastResultsHash ← optionalHash value.lastResultsHash
  let height ← Height.tryFromI64 value.height
  if lastBlockId.isSome && height.value == 1 then throw .invalidFirstHeader
  let version ← match value.version with
    | none => throw .missingVersion
    | some v => pure (Version.ofRaw v)
  let chainId ← ChainId.tryFrom value.chainId
  let time ← match value.time with
    | none => throw .missingTimestamp
    | some t => Time.tryFromTimestamp t
  let dataHash ← optionalHash value.dataHash
  let validatorsHash ← Hash.tryFromBytes value.validatorsHash
  let nextValidatorsHash ← Hash.tryFromBytes value.nextValidatorsHash
  let consensusHash ← Hash.tryFromBytes value.consensusHash
  let evidenceHash ← optionalHash value.evidenceHash
  let proposerAddress ← AccountId.tryFromBytes value.proposerAddress
  pure { version, chainId, height, time, lastBlockId, lastCommitHash, dataHash, validatorsHash,
         nextValidatorsHash, consensusHash, appHash := ⟨value.appHash⟩, lastResultsHash,
         evidenceHash, proposerAddress }

/-! ## Decoding an encoded header -/

/-- What decoding does to a header: an optional hash that is the empty hash and a last block id
that is the default id are dropped. -/
def normalize (h : Header) : Header :=
  { h with
    lastBlockId := h.lastBlockId.filter (· != default)
    lastCommitHash := h.lastCommitHash.filter (· != default)
    dataHash := h.dataHash.filter (· != default)
    lastResultsHash := h.lastResultsHash.filter (· != default)
    evidenceHash := h.evidenceHash.filter (· != default) }

/-- The bytes of an optional hash read back as the hash, an empty one as none. -/
theorem optionalHash_toBytes (o : Option Hash) :
    optionalHash (o.getD default).toBytes = .ok (o.filter (· != default)) := by
  rcases o with _ | (b | _)
  · rfl
  · have hne : (Hash.sha256 b).toBytes.isEmpty = false := by
      rw [List.isEmpty_eq_false_iff, ← List.length_pos_iff, Hash.toBytes,
        List.Vector.toList_length]
      decide
    simp only [optionalHash, Option.getD_some, hne, Hash.tryFromBytes_toBytes, Option.filter_some]
    rfl
  · rfl

/-- An optional block id converts to its raw message and back. -/
theorem mapM_tryFromRaw_toRaw (o : Option BlockId) :
    (o.map BlockId.toRaw).mapM BlockId.tryFromRaw = .ok o := by
  cases o with
  | none => rfl
  | some b =>
    simp only [Option.map_some, Option.mapM_some, BlockId.tryFromRaw_toRaw]
    rfl

/-- Every field decodes back to itself, so the only failure left is the first-header check. -/
theorem tryFromRaw_toRaw (h : Header) :
    tryFromRaw h.toRaw =
      if (h.lastBlockId.filter (· != default)).isSome ∧ h.height.value = 1 then
        .error .invalidFirstHeader
      else .ok h.normalize := by
  simp only [tryFromRaw, toRaw, mapM_tryFromRaw_toRaw, optionalHash_toBytes,
    Height.tryFromI64_toI64, ChainId.tryFrom_id, Time.tryFromTimestamp_toTimestamp,
    Hash.tryFromBytes_toBytes, AccountId.tryFromBytes_toBytes, Rust.ok_bind]
  by_cases hc : (h.lastBlockId.filter (· != default)).isSome ∧ h.height.value = 1
  · rw [if_pos (by simpa using hc), if_pos hc]
    rfl
  · rw [if_neg (by simpa using hc), if_neg hc]
    rfl

/-- A normalised header that is not a first block with a last block id decodes back to itself. -/
theorem tryFromRaw_toRaw_of_normalize_eq {h : Header} (hn : h.normalize = h)
    (hfirst : h.height.value = 1 → h.lastBlockId = none) : tryFromRaw h.toRaw = .ok h := by
  rw [tryFromRaw_toRaw, if_neg, hn]
  rintro ⟨hsome, h1⟩
  have hlast : h.lastBlockId.filter (· != default) = h.lastBlockId :=
    congrArg Header.lastBlockId hn
  rw [hlast, hfirst h1] at hsome
  cases hsome

/-- The hash reads every optional field through `unwrap_or_default`, which absorbs the
normalisation. -/
theorem hashWith_normalize (H : MerkleHash) (P : Prost) (h : Header) :
    h.normalize.hashWith H P = h.hashWith H P := by
  simp only [hashWith, fieldsBytes, normalize, Rust.getD_filter_ne]

/-- A block id survives the filter of the default exactly when it is not the default. -/
theorem isSome_filter_ne_default {o : Option BlockId} :
    (o.filter (· != default)).isSome ↔ ∃ b, o = some b ∧ b ≠ default := by
  cases o with
  | none => simp
  | some b => simp [Option.filter_some]

/-- Decoding an encoded header fails only on a first block with a last block id, and otherwise
yields the normalised header, which has the same hash. -/
theorem decode_header_preserves_hash (H : MerkleHash) (P : Prost) (h : Header) :
    ((∃ e, tryFromRaw h.toRaw = .error e) ↔
        h.height.value = 1 ∧ ∃ b, h.lastBlockId = some b ∧ b ≠ default) ∧
      ∀ h', tryFromRaw h.toRaw = .ok h' → h' = h.normalize ∧ h'.hashWith H P = h.hashWith H P := by
  rw [tryFromRaw_toRaw]
  split
  · next hc =>
    refine ⟨⟨fun _ => ⟨hc.2, isSome_filter_ne_default.mp hc.1⟩, fun _ => ⟨_, rfl⟩⟩, ?_⟩
    rintro h' ⟨⟩
  · next hc =>
    refine ⟨⟨?_, fun ⟨h1, hb⟩ => absurd ⟨isSome_filter_ne_default.mpr hb, h1⟩ hc⟩, ?_⟩
    · rintro ⟨e, ⟨⟩⟩
    · rintro h' ⟨⟩
      exact ⟨rfl, hashWith_normalize H P h⟩

end Header

/-- `block::CommitSig`. -/
inductive CommitSig
  | blockIdFlagAbsent
  | blockIdFlagCommit (validatorAddress : AccountId) (timestamp : Time)
      (signature : Option Signature)
  | blockIdFlagNil (validatorAddress : AccountId) (timestamp : Time)
      (signature : Option Signature)
deriving DecidableEq

namespace CommitSig

/-- `CommitSig::validator_address`. -/
def validatorAddress : CommitSig → Option AccountId
  | blockIdFlagCommit a _ _ => some a
  | blockIdFlagNil a _ _ => some a
  | blockIdFlagAbsent => none

/-- `CommitSig::is_absent`. -/
def isAbsent : CommitSig → Bool
  | blockIdFlagAbsent => true
  | _ => false

/-- `CommitSig::is_commit`. -/
def isCommit : CommitSig → Bool
  | blockIdFlagCommit .. => true
  | _ => false

/-- `CommitSig::is_nil`. -/
def isNil : CommitSig → Bool
  | blockIdFlagNil .. => true
  | _ => false

end CommitSig

/-- `types::BlockIdFlag`. -/
inductive BlockIdFlag
  | unknown
  | absent
  | commit
  | nil
deriving DecidableEq

/-- `BlockIdFlag as i32`. -/
def BlockIdFlag.toI32 : BlockIdFlag → Int
  | unknown => 0
  | absent => 1
  | commit => 2
  | nil => 3

/-- `types::CommitSig`. -/
structure RawCommitSig where
  blockIdFlag : Int
  validatorAddress : Bytes
  timestamp : Option Timestamp
  signature : Bytes
deriving DecidableEq

/-- `ZERO_TIMESTAMP`, `0001-01-01T00:00:00Z`: the timestamp of an absent vote. -/
def zeroTimestamp : Timestamp := ⟨-62135596800, 0⟩

namespace CommitSig

/-- `TryFrom<RawCommitSig> for CommitSig`. -/
def tryFromRaw (value : RawCommitSig) : Except Error CommitSig :=
  if value.blockIdFlag = BlockIdFlag.absent.toI32 then
    -- 0001-01-01T00:00:00.000Z translates to EPOCH-62135596800 seconds
    if value.timestamp.any fun timestamp =>
        timestamp.nanos != 0 || timestamp.seconds != -62135596800 then
      .error (.invalidTimestamp "absent commitsig has non-zero timestamp")
    else if !value.signature.isEmpty then
      .error (.invalidSignature "expected empty signature for absent commitsig")
    else .ok .blockIdFlagAbsent
  else if value.blockIdFlag = BlockIdFlag.commit.toI32 then
    if value.signature.isEmpty then
      .error (.invalidSignature "expected non-empty signature for regular commitsig")
    else if value.validatorAddress.isEmpty then .error .invalidValidatorAddress
    else do
      let timestamp ← Time.tryFromRequired value.timestamp
      let validatorAddress ← AccountId.tryFromBytes value.validatorAddress
      let signature ← Signature.new value.signature
      pure (.blockIdFlagCommit validatorAddress timestamp signature)
  else if value.blockIdFlag = BlockIdFlag.nil.toI32 then
    if value.signature.isEmpty then .error (.invalidSignature "nil commitsig has no signature")
    else if value.validatorAddress.isEmpty then .error .invalidValidatorAddress
    else do
      -- the fields of the struct literal, in their order
      let validatorAddress ← AccountId.tryFromBytes value.validatorAddress
      let timestamp ← Time.tryFromRequired value.timestamp
      let signature ← Signature.new value.signature
      pure (.blockIdFlagNil validatorAddress timestamp signature)
  else .error .blockIdFlag

/-- `From<CommitSig> for RawCommitSig`. -/
def toRaw : CommitSig → RawCommitSig
  | blockIdFlagAbsent => ⟨BlockIdFlag.absent.toI32, [], some zeroTimestamp, []⟩
  | blockIdFlagNil validatorAddress timestamp signature =>
    ⟨BlockIdFlag.nil.toI32, validatorAddress.toBytes, some timestamp.toTimestamp,
      (signature.map Signature.intoBytes).getD []⟩
  | blockIdFlagCommit validatorAddress timestamp signature =>
    ⟨BlockIdFlag.commit.toI32, validatorAddress.toBytes, some timestamp.toTimestamp,
      (signature.map Signature.intoBytes).getD []⟩

end CommitSig

/-- The well-formed raw commit signature: an absent vote carries no address, no signature, and no
timestamp or the zero one; a commit or nil vote carries a 20-byte address, a 64-byte signature and
a timestamp in the range of `Time`. -/
def RawCommitSig.WellFormed (r : RawCommitSig) : Prop :=
  (r.blockIdFlag = BlockIdFlag.absent.toI32 ∧ r.validatorAddress = [] ∧ r.signature = [] ∧
      (r.timestamp = none ∨ r.timestamp = some zeroTimestamp)) ∨
    ((r.blockIdFlag = BlockIdFlag.commit.toI32 ∨ r.blockIdFlag = BlockIdFlag.nil.toI32) ∧
      r.validatorAddress.length = 20 ∧ r.signature.length = 64 ∧
      ∃ t, Time.tryFromRequired r.timestamp = .ok t)

namespace CommitSig

/-! ### Decoding a commit signature

`TryFrom<RawCommitSig>` checks the timestamp and the signature of an absent vote, but not its
validator address, which the result has no field for: an absent vote with an address decodes, and
encodes back without it. Apart from that address, the decoder accepts exactly the well-formed raw
signatures, and encoding what it decodes gives the raw signature back, with the zero timestamp for
an absent vote that had none. -/

/-- A timestamp passes the zero check exactly when it is absent or the zero timestamp. -/
theorem any_nonZero_eq_false {timestamp : Option Timestamp} :
    (timestamp.any fun t => t.nanos != 0 || t.seconds != -62135596800) = false ↔
      timestamp = none ∨ timestamp = some zeroTimestamp := by
  rcases timestamp with _ | ⟨seconds, nanos⟩
  · simp
  · simp [zeroTimestamp, and_comm]

/-- What a decoded commit signature is made of: an absent vote of no or the zero timestamp and no
signature, or a commit or nil vote of a decoded address, timestamp and (non-empty) signature. -/
theorem tryFromRaw_eq_ok {value : RawCommitSig} {c : CommitSig} (h : tryFromRaw value = .ok c) :
    (value.blockIdFlag = BlockIdFlag.absent.toI32 ∧
        (value.timestamp = none ∨ value.timestamp = some zeroTimestamp) ∧ value.signature = [] ∧
        c = .blockIdFlagAbsent) ∨
      ∃ validatorAddress timestamp signature,
        AccountId.tryFromBytes value.validatorAddress = .ok validatorAddress ∧
        Time.tryFromRequired value.timestamp = .ok timestamp ∧
        Signature.new value.signature = .ok signature ∧ value.signature ≠ [] ∧
        ((value.blockIdFlag = BlockIdFlag.commit.toI32 ∧
            c = .blockIdFlagCommit validatorAddress timestamp signature) ∨
          (value.blockIdFlag = BlockIdFlag.nil.toI32 ∧
            c = .blockIdFlagNil validatorAddress timestamp signature)) := by
  unfold tryFromRaw at h
  split at h
  · next habs =>
    split at h
    · cases h
    · next hts =>
      split at h
      · cases h
      · next hsig =>
        cases h
        exact .inl ⟨habs, any_nonZero_eq_false.mp (Bool.eq_false_iff.mpr hts), by simpa using hsig,
          rfl⟩
  · split at h
    · next hcommit =>
      split at h
      · cases h
      · next hsig =>
        split at h
        · cases h
        · obtain ⟨timestamp, ht, h⟩ := Rust.bind_eq_ok.mp h
          obtain ⟨validatorAddress, ha, h⟩ := Rust.bind_eq_ok.mp h
          obtain ⟨signature, hs, h⟩ := Rust.bind_eq_ok.mp h
          cases h
          exact .inr ⟨validatorAddress, timestamp, signature, ha, ht, hs, by simpa using hsig,
            .inl ⟨hcommit, rfl⟩⟩
    · split at h
      · next hnil =>
        split at h
        · cases h
        · next hsig =>
          split at h
          · cases h
          · obtain ⟨validatorAddress, ha, h⟩ := Rust.bind_eq_ok.mp h
            obtain ⟨timestamp, ht, h⟩ := Rust.bind_eq_ok.mp h
            obtain ⟨signature, hs, h⟩ := Rust.bind_eq_ok.mp h
            cases h
            exact .inr ⟨validatorAddress, timestamp, signature, ha, ht, hs, by simpa using hsig,
              .inr ⟨hnil, rfl⟩⟩
      · cases h

/-- A commit or nil flag is not the absent flag. -/
theorem ne_absent_of_flag {r : RawCommitSig}
    (hflag : r.blockIdFlag = BlockIdFlag.commit.toI32 ∨ r.blockIdFlag = BlockIdFlag.nil.toI32) :
    r.blockIdFlag ≠ BlockIdFlag.absent.toI32 := by
  rcases hflag with hf | hf
  · rw [hf]
    exact ne_of_beq_false rfl
  · rw [hf]
    exact ne_of_beq_false rfl

/-- What decodes is well formed, once the address of an absent vote is cleared. -/
theorem wellFormed_of_tryFromRaw {r : RawCommitSig} {c : CommitSig} (h : tryFromRaw r = .ok c) :
    RawCommitSig.WellFormed { r with validatorAddress :=
      if r.blockIdFlag = BlockIdFlag.absent.toI32 then [] else r.validatorAddress } := by
  rcases tryFromRaw_eq_ok h with ⟨habs, hts, hsig, -⟩ | ⟨a, t, s, ha, ht, hs, hne, hflag⟩
  · exact .inl ⟨habs, if_pos habs, hsig, hts⟩
  · have hflag' := hflag.imp And.left And.left
    obtain ⟨s', -, hs'⟩ := Signature.length_of_new hs hne
    refine .inr ⟨hflag', ?_, ?_, t, ht⟩
    · show (if r.blockIdFlag = BlockIdFlag.absent.toI32 then [] else r.validatorAddress).length = 20
      rw [if_neg (ne_absent_of_flag hflag'), ← AccountId.toBytes_of_tryFromBytes ha,
        AccountId.length_toBytes]
    · show r.signature.length = 64
      rw [← hs', Signature.length_intoBytes]

/-- Conversely, what is well formed once the address of an absent vote is cleared decodes. -/
theorem tryFromRaw_of_wellFormed {r : RawCommitSig}
    (h : RawCommitSig.WellFormed { r with validatorAddress :=
      if r.blockIdFlag = BlockIdFlag.absent.toI32 then [] else r.validatorAddress }) :
    ∃ c, tryFromRaw r = .ok c := by
  rcases h with ⟨habs, -, hsig, hts⟩ | ⟨hflag, hlen, hsiglen, t, ht⟩
  · have hany := any_nonZero_eq_false.mpr hts
    have hsig' : r.signature = [] := hsig
    refine ⟨.blockIdFlagAbsent, ?_⟩
    unfold tryFromRaw
    rw [if_pos habs, hany, hsig']
    rfl
  · dsimp only at hflag hlen hsiglen ht
    have hna := ne_absent_of_flag hflag
    rw [if_neg hna] at hlen
    have hsigne : r.signature ≠ [] := List.ne_nil_of_length_pos (by rw [hsiglen]; decide)
    have haddrne : r.validatorAddress ≠ [] := List.ne_nil_of_length_pos (by rw [hlen]; decide)
    have ha : AccountId.tryFromBytes r.validatorAddress = .ok ⟨⟨r.validatorAddress, hlen⟩⟩ :=
      dif_pos hlen
    have hs : Signature.new r.signature = .ok (some ⟨⟨r.signature, hsiglen⟩⟩) := by
      unfold Signature.new
      rw [if_neg (by simpa using hsigne), dif_pos hsiglen]
    unfold tryFromRaw
    rw [if_neg hna]
    rcases hflag with hf | hf
    · rw [if_pos hf, if_neg (by simpa using hsigne), if_neg (by simpa using haddrne), ht,
        Rust.ok_bind, ha, Rust.ok_bind, hs, Rust.ok_bind]
      exact ⟨_, rfl⟩
    · rw [if_neg (by rw [hf]; exact ne_of_beq_false rfl), if_pos hf, if_neg (by simpa using hsigne),
        if_neg (by simpa using haddrne), ha, Rust.ok_bind, ht, Rust.ok_bind, hs, Rust.ok_bind]
      exact ⟨_, rfl⟩

/-- Encoding what decodes gives the raw signature back, but for the zero timestamp of an absent
vote that had none, and for the address of an absent vote, which is dropped. -/
theorem toRaw_of_tryFromRaw {r : RawCommitSig} {c : CommitSig} (h : tryFromRaw r = .ok c) :
    c.toRaw = { r with
      validatorAddress := if c.isAbsent then [] else r.validatorAddress
      timestamp := some (r.timestamp.getD zeroTimestamp) } := by
  obtain ⟨flag, address, timestamp, signature⟩ := r
  rcases tryFromRaw_eq_ok h with ⟨habs, hts, hsig, rfl⟩ | ⟨a, t, s, ha, ht, hs, -, hflag⟩
  · -- an absent vote: the zero timestamp, no address and no signature
    dsimp only at habs hts hsig
    subst habs hsig
    rcases hts with rfl | rfl
    · rfl
    · rfl
  · -- a commit or nil vote: each field is encoded back as it was read
    have ha' := AccountId.toBytes_of_tryFromBytes ha
    have ht' := Time.toTimestamp_of_tryFromRequired ht
    have hs' := Signature.getD_map_intoBytes_of_new hs
    dsimp only at ha' ht' hs' hflag
    subst ha' ht' hs'
    rcases hflag with ⟨rfl, rfl⟩ | ⟨rfl, rfl⟩
    · rfl
    · rfl

/-- A commit signature whose votes carry a signature decodes from its encoding. -/
theorem tryFromRaw_toRaw (c : CommitSig) (hcommit : ∀ a t, c ≠ .blockIdFlagCommit a t none)
    (hnil : ∀ a t, c ≠ .blockIdFlagNil a t none) : tryFromRaw c.toRaw = .ok c := by
  cases c with
  | blockIdFlagAbsent => rfl
  | blockIdFlagCommit a t s =>
    cases s with
    | none => exact absurd rfl (hcommit a t)
    | some s =>
      show tryFromRaw ⟨BlockIdFlag.commit.toI32, a.toBytes, some t.toTimestamp, s.intoBytes⟩ = _
      unfold tryFromRaw
      rw [if_neg (ne_of_beq_false rfl), if_pos rfl, Signature.isEmpty_intoBytes,
        AccountId.isEmpty_toBytes, Time.tryFromRequired_toTimestamp, Rust.ok_bind,
        AccountId.tryFromBytes_toBytes, Rust.ok_bind, Signature.new_intoBytes, Rust.ok_bind]
      rfl
  | blockIdFlagNil a t s =>
    cases s with
    | none => exact absurd rfl (hnil a t)
    | some s =>
      show tryFromRaw ⟨BlockIdFlag.nil.toI32, a.toBytes, some t.toTimestamp, s.intoBytes⟩ = _
      unfold tryFromRaw
      rw [if_neg (ne_of_beq_false rfl), if_neg (ne_of_beq_false rfl), if_pos rfl,
        Signature.isEmpty_intoBytes, AccountId.isEmpty_toBytes, AccountId.tryFromBytes_toBytes,
        Rust.ok_bind, Time.tryFromRequired_toTimestamp, Rust.ok_bind, Signature.new_intoBytes,
        Rust.ok_bind]
      rfl

/-- The commit and nil votes carry their signature: the variants allow none, which encodes as no
bytes, and no bytes do not decode. -/
def Signed (c : CommitSig) : Prop :=
  (∀ a t, c ≠ .blockIdFlagCommit a t none) ∧ ∀ a t, c ≠ .blockIdFlagNil a t none

end CommitSig

/-- The decoder of commit signatures accepts exactly the raw signatures that are well formed once
the address of an absent vote is cleared; encoding what it decodes gives the raw signature back but
for the zero timestamp of an absent vote that had none and for the address of an absent vote; and a
commit signature whose votes carry a signature decodes from its encoding. -/
theorem commitSig_raw_roundtrip_up_to_absent_address :
    (∀ r : RawCommitSig, (∃ c, CommitSig.tryFromRaw r = .ok c) ↔
      RawCommitSig.WellFormed { r with validatorAddress :=
        if r.blockIdFlag = BlockIdFlag.absent.toI32 then [] else r.validatorAddress }) ∧
    (∀ r c, CommitSig.tryFromRaw r = .ok c →
      c.toRaw = { r with
        validatorAddress := if c.isAbsent then [] else r.validatorAddress
        timestamp := some (r.timestamp.getD zeroTimestamp) }) ∧
    ∀ c : CommitSig, (∀ a t, c ≠ .blockIdFlagCommit a t none) →
      (∀ a t, c ≠ .blockIdFlagNil a t none) → CommitSig.tryFromRaw c.toRaw = .ok c := by
  refine ⟨fun r => ⟨?_, CommitSig.tryFromRaw_of_wellFormed⟩,
    fun r c h => CommitSig.toRaw_of_tryFromRaw h, CommitSig.tryFromRaw_toRaw⟩
  rintro ⟨c, h⟩
  exact CommitSig.wellFormed_of_tryFromRaw h

/-- An absent vote that names a validator decodes, though it is not well formed, and encodes back
without the address. -/
theorem commitSig_absent_with_address_decodes :
    CommitSig.tryFromRaw ⟨BlockIdFlag.absent.toI32, List.replicate 20 0, none, []⟩ =
        .ok .blockIdFlagAbsent ∧
      ¬ RawCommitSig.WellFormed ⟨BlockIdFlag.absent.toI32, List.replicate 20 0, none, []⟩ ∧
      CommitSig.blockIdFlagAbsent.toRaw ≠
        ⟨BlockIdFlag.absent.toI32, List.replicate 20 0, some zeroTimestamp, []⟩ := by
  have hdec : CommitSig.tryFromRaw ⟨BlockIdFlag.absent.toI32, List.replicate 20 0, none, []⟩ =
      .ok .blockIdFlagAbsent := rfl
  have henc := commitSig_raw_roundtrip_up_to_absent_address.2.1 _ _ hdec
  refine ⟨hdec, ?_, ?_⟩
  · rintro (⟨-, haddr, -⟩ | ⟨hflag, -⟩)
    · exact absurd haddr (by simp)
    · rcases hflag with hf | hf
      · exact absurd hf (ne_of_beq_false rfl)
      · exact absurd hf (ne_of_beq_false rfl)
  · rw [henc]
    simp [CommitSig.isAbsent]

/-- `block::Commit`. -/
structure Commit where
  height : Height
  round : Round
  blockId : BlockId
  signatures : List CommitSig
deriving DecidableEq

/-- `block::SignedHeader`. Its fields are public, so nothing relates the header to the commit. -/
structure SignedHeader where
  header : Header
  commit : Commit
deriving DecidableEq

/-- `SignedHeader::new`. -/
def SignedHeader.new (header : Header) (commit : Commit) : Except Error SignedHeader :=
  if header.height ≠ commit.height then .error .invalidSignedHeader
  else .ok ⟨header, commit⟩

/-! ## Commits and signed headers on the wire -/

/-- `types::Commit`. -/
structure RawCommit where
  height : Int
  round : Int
  blockId : Option RawBlockId
  signatures : List RawCommitSig
deriving DecidableEq

/-- `types::SignedHeader`. -/
structure RawSignedHeader where
  header : Option RawHeader
  commit : Option RawCommit
deriving DecidableEq

namespace Commit

/-- `TryFrom<RawCommit> for Commit`: the signatures are collected before the other fields are
read, and their error is raised last. -/
def tryFromRaw (value : RawCommit) : Except Error Commit := do
  let signatures := value.signatures.mapM CommitSig.tryFromRaw
  let height ← Height.tryFromI64 value.height
  let round ← Round.tryFromI32 value.round
  -- `gogoproto.nullable = false`
  let blockId ← match value.blockId with
    | none => throw (.invalidBlock "missing block id")
    | some blockId => BlockId.tryFromRaw blockId
  let signatures ← signatures
  pure ⟨height, round, blockId, signatures⟩

/-- `From<Commit> for RawCommit`. -/
def toRaw (value : Commit) : RawCommit where
  height := value.height.toI64
  round := value.round.value
  blockId := some value.blockId.toRaw
  signatures := value.signatures.map CommitSig.toRaw

/-- A commit whose votes carry their signatures decodes from its encoding. -/
theorem tryFromRaw_toRaw {c : Commit} (hsigs : ∀ s ∈ c.signatures, s.Signed) :
    tryFromRaw c.toRaw = .ok c := by
  have hmapM : (c.signatures.map CommitSig.toRaw).mapM CommitSig.tryFromRaw = .ok c.signatures :=
    Rust.mapM_map_of_forall fun s hs =>
      CommitSig.tryFromRaw_toRaw s (hsigs s hs).1 (hsigs s hs).2
  simp only [tryFromRaw, toRaw, hmapM, Height.tryFromI64_toI64, Round.tryFromI32_value,
    BlockId.tryFromRaw_toRaw, Rust.ok_bind]
  rfl

end Commit

namespace SignedHeader

/-- `TryFrom<RawSignedHeader> for SignedHeader`, which ends with the check of
`SignedHeader::new`. -/
def tryFromRaw (value : RawSignedHeader) : Except Error SignedHeader := do
  let header ← match value.header with
    | none => throw .invalidSignedHeader
    | some header => Header.tryFromRaw header
  let commit ← match value.commit with
    | none => throw .invalidSignedHeader
    | some commit => Commit.tryFromRaw commit
  new header commit

/-- `From<SignedHeader> for RawSignedHeader`. -/
def toRaw (value : SignedHeader) : RawSignedHeader :=
  ⟨some value.header.toRaw, some value.commit.toRaw⟩

/-- A signed header decodes from its encoding when its header is normalised and is not a first
block with a last block id, its votes carry their signatures, and the header and the commit are of
one height. -/
theorem tryFromRaw_toRaw {sh : SignedHeader} (hn : sh.header.normalize = sh.header)
    (hfirst : sh.header.height.value = 1 → sh.header.lastBlockId = none)
    (hsigs : ∀ s ∈ sh.commit.signatures, s.Signed) (hheight : sh.header.height = sh.commit.height) :
    tryFromRaw sh.toRaw = .ok sh := by
  simp only [tryFromRaw, toRaw, Header.tryFromRaw_toRaw_of_normalize_eq hn hfirst,
    Commit.tryFromRaw_toRaw hsigs, Rust.ok_bind]
  rw [new, if_neg (not_not.mpr hheight)]

end SignedHeader


/-! ## Fixed values

Crypto providers and a header over which cases on fixed inputs are stated. -/

/-- Encoders that write nothing. -/
def Prost.empty : Prost :=
  ⟨fun _ => [], fun _ => [], fun _ => [], fun _ => [], fun _ => [], fun _ => [], fun _ => [],
    fun _ => []⟩

/-- A digest that is zero on every input. -/
def Sha256.zero : Sha256 := ⟨fun _ => List.Vector.replicate 32 0⟩

/-- A verifier that accepts every signature. -/
def Signature.Verifier.acceptAll : Signature.Verifier := ⟨fun _ _ _ => true⟩

/-- The header of a chain named `"x"` at a height and time, committing to the given validator
hashes, with every other field empty. -/
def Header.ofHashes (height : Height) (time : Time) (validatorsHash nextValidatorsHash : Hash) :
    Header where
  version := ⟨0, 0⟩
  chainId := ⟨"x", by decide⟩
  height := height
  time := time
  lastBlockId := none
  lastCommitHash := none
  dataHash := none
  validatorsHash := validatorsHash
  nextValidatorsHash := nextValidatorsHash
  consensusHash := .none
  appHash := ⟨[]⟩
  lastResultsHash := none
  evidenceHash := none
  proposerAddress := ⟨List.Vector.replicate 20 0⟩

end Tendermint
