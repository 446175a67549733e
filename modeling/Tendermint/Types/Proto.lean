import Tendermint.Types.Identifiers

/-!
# Protobuf messages

The raw messages of `tendermint-proto` (the `prost`-generated structs of `proto/src/prost`) that the
hashed and signed values pass through, the conversions between them and the domain types written
in `tendermint` (`time.rs`, `block/parts.rs`, `block/id.rs`, `public_key.rs`), and the wire encodings.

The encodings are `prost`'s `Message::encode_to_vec` (and `encode_length_delimited_to_vec`),
generated by `prost-derive` outside this repository, so `Prost` collects them as functions of the
raw messages; `Protobuf::encode_vec` of a domain value is the encoding of its raw conversion.
-/

namespace Tendermint

/-- The protocol versions whose messages `tendermint_pb_modules!` writes the conversions for
(`tendermint_proto::v0_34`, `v0_37` and `v0_38`). -/
inductive ProtoVersion
  | v034
  | v037
  | v038
deriving DecidableEq, Repr

/-- `google.protobuf.Timestamp`: seconds (`i64`) and nanoseconds (`i32`) from the Unix epoch. -/
structure Timestamp where
  seconds : Int
  nanos : Int
deriving DecidableEq

namespace Time

/-- `From<Time> for Timestamp`: `unix_timestamp()` and `nanosecond()` of the instant. -/
def toTimestamp (t : Time) : Timestamp :=
  ⟨t.nanos / 10 ^ 9, t.nanos % 10 ^ 9⟩

/-- `Time::from_unix_timestamp(secs, nanos)`. -/
def fromUnixTimestamp (secs : Int) (nanos : Nat) : Except Error Time :=
  if nanos > 999999999 then .error .timestampNanosOutOfRange
  else
    let total := secs * 10 ^ 9 + nanos
    if h : minNanos ≤ total ∧ total ≤ maxNanos then .ok ⟨total, h.1, h.2⟩
    else if primitiveMinNanos ≤ total ∧ total < minNanos then .error .dateOutOfRange
    else .error .timestampConversion

/-- `TryFrom<Timestamp> for Time`. -/
def tryFromTimestamp (value : Timestamp) : Except Error Time :=
  if value.nanos < 0 then .error .timestampNanosOutOfRange
  else fromUnixTimestamp value.seconds value.nanos.toNat

theorem tryFromTimestamp_toTimestamp (t : Time) : tryFromTimestamp t.toTimestamp = .ok t := by
  have hn : (0 : Int) ≤ t.nanos % 10 ^ 9 := Int.emod_nonneg _ (by decide)
  have hl : t.nanos % 10 ^ 9 < 10 ^ 9 := Int.emod_lt_of_pos _ (by decide)
  have hdiv : t.nanos / 10 ^ 9 * 10 ^ 9 + t.nanos % 10 ^ 9 = t.nanos := Int.ediv_mul_add_emod _ _
  have ht : t.nanos / 10 ^ 9 * 10 ^ 9 + ((t.nanos % 10 ^ 9).toNat : Int) = t.nanos := by
    rw [Int.toNat_of_nonneg hn]; exact hdiv
  simp only [tryFromTimestamp, toTimestamp, fromUnixTimestamp, ht]
  have h₁ : ¬ t.nanos % 10 ^ 9 < 0 := by omega
  have h₂ : ¬ (t.nanos % 10 ^ 9).toNat > 999999999 := by omega
  rw [if_neg h₁, if_neg h₂, dif_pos ⟨t.ge, t.le⟩]

/-- A timestamp that decodes is the timestamp of what it decodes to: its nanoseconds are below
`10 ^ 9`, so seconds and nanoseconds are the quotient and the remainder. -/
theorem toTimestamp_of_tryFromTimestamp {value : Timestamp} {t : Time}
    (h : tryFromTimestamp value = .ok t) : t.toTimestamp = value := by
  obtain ⟨secs, nanos⟩ := value
  unfold tryFromTimestamp fromUnixTimestamp at h
  split at h
  · cases h
  · next hneg =>
    split at h
    · cases h
    · next hbig =>
      dsimp only at h hneg hbig
      split at h
      · cases h
        simp only [toTimestamp, Timestamp.mk.injEq]
        omega
      · split at h <;> cases h

/-- `timestamp.ok_or_else(Error::missing_timestamp)?.try_into()`: a timestamp the message must
carry, decoded. -/
def tryFromRequired (timestamp : Option Timestamp) : Except Error Time :=
  match timestamp with
  | none => .error .missingTimestamp
  | some t => tryFromTimestamp t

@[simp] theorem tryFromRequired_toTimestamp (t : Time) :
    tryFromRequired (some t.toTimestamp) = .ok t :=
  tryFromTimestamp_toTimestamp t

@[simp] theorem mapM_tryFromTimestamp_map (o : Option Time) :
    (o.map toTimestamp).mapM tryFromTimestamp = .ok o := by
  cases o with
  | none => rfl
  | some t =>
    rw [Option.map_some, Option.mapM_some, tryFromTimestamp_toTimestamp]
    rfl

theorem toTimestamp_of_tryFromRequired {timestamp : Option Timestamp} {t : Time}
    (h : tryFromRequired timestamp = .ok t) : some t.toTimestamp = timestamp := by
  cases timestamp with
  | none => cases h
  | some ts => rw [toTimestamp_of_tryFromTimestamp h]

end Time

/-- `types::PartSetHeader` (and `CanonicalPartSetHeader`, which has the same fields). -/
structure RawPartSetHeader where
  total : UInt32
  hash : Bytes
deriving DecidableEq

/-- `types::BlockId`. -/
structure RawBlockId where
  hash : Bytes
  partSetHeader : Option RawPartSetHeader
deriving DecidableEq

/-- `types::CanonicalBlockId`. -/
structure RawCanonicalBlockId where
  hash : Bytes
  partSetHeader : Option RawPartSetHeader
deriving DecidableEq

/-- `crypto::PublicKey`, whose `sum` is a oneof of the key kinds. -/
inductive RawPublicKeySum
  | ed25519 (bytes : Bytes)
  | secp256k1 (bytes : Bytes)
deriving DecidableEq

/-- `types::SimpleValidator`. -/
structure RawSimpleValidator where
  pubKey : Option RawPublicKeySum
  votingPower : Int
deriving DecidableEq

/-- `version::Consensus`. -/
structure RawConsensusVersion where
  block : UInt64
  app : UInt64
deriving DecidableEq

/-- `types::CanonicalVote`. -/
structure RawCanonicalVote where
  type : Int
  height : Int
  round : Int
  blockId : Option RawCanonicalBlockId
  timestamp : Option Timestamp
  chainId : String
deriving DecidableEq

namespace PartSetHeader

/-- `From<block::parts::Header> for RawPartSetHeader`. -/
def toRaw (h : PartSetHeader) : RawPartSetHeader := ⟨h.total, h.hash.toBytes⟩

/-- `TryFrom<RawPartSetHeader> for block::parts::Header`. -/
def tryFromRaw (value : RawPartSetHeader) : Except Error PartSetHeader :=
  if !value.hash.isEmpty && value.hash.length != 32 then .error .invalidHashSize
  else (Hash.fromBytes value.hash).map fun hash => ⟨value.total, hash⟩

theorem tryFromRaw_toRaw (h : PartSetHeader) : tryFromRaw h.toRaw = .ok h := by
  obtain ⟨total, hash⟩ := h
  have hs : ¬ (!hash.toBytes.isEmpty && hash.toBytes.length != 32) = true := by
    cases hash with
    | sha256 b => simp [Hash.toBytes]
    | none => simp [Hash.toBytes]
  simp only [tryFromRaw, toRaw, hs, Hash.fromBytes_toBytes]
  rfl

end PartSetHeader

namespace BlockId

/-- `From<block::Id> for RawBlockId`: the default id is written as Go writes a nil id, an empty
struct with an empty part set header. -/
def toRaw (value : BlockId) : RawBlockId :=
  if value = default then ⟨[], some ⟨0, []⟩⟩
  else ⟨value.hash.toBytes, some value.partSetHeader.toRaw⟩

/-- `TryFrom<RawBlockId> for block::Id`. -/
def tryFromRaw (value : RawBlockId) : Except Error BlockId :=
  match value.partSetHeader with
  | none => .error (.invalidPartSetHeader "part_set_header is None")
  | some psh => do
    let hash ← Hash.tryFromBytes value.hash
    let partSetHeader ← PartSetHeader.tryFromRaw psh
    pure ⟨hash, partSetHeader⟩

/-- `From<block::Id> for RawCanonicalBlockId`. -/
def toRawCanonical (value : BlockId) : RawCanonicalBlockId :=
  ⟨value.hash.toBytes, some value.partSetHeader.toRaw⟩

theorem tryFromRaw_toRaw (b : BlockId) : tryFromRaw b.toRaw = .ok b := by
  unfold toRaw
  split
  · next h =>
    subst h
    rfl
  · simp only [tryFromRaw, Hash.tryFromBytes_toBytes, PartSetHeader.tryFromRaw_toRaw]
    rfl

/-- `TryFrom<RawCanonicalBlockId> for block::Id`, the same conversion as from a `RawBlockId`. -/
def tryFromRawCanonical (value : RawCanonicalBlockId) : Except Error BlockId :=
  tryFromRaw ⟨value.hash, value.partSetHeader⟩

theorem tryFromRawCanonical_toRawCanonical (b : BlockId) :
    tryFromRawCanonical b.toRawCanonical = .ok b := by
  simp only [tryFromRawCanonical, toRawCanonical, tryFromRaw, Hash.tryFromBytes_toBytes,
    PartSetHeader.tryFromRaw_toRaw]
  rfl

/-- The canonical encoders leave the default id out and the decoders drop an id of empty hash: an
optional id comes back without an id of empty hash. -/
theorem mapM_tryFromRawCanonical_filter (o : Option BlockId) :
    (((o.filter (· != default)).map toRawCanonical).filter fun i => !i.hash.isEmpty).mapM
        tryFromRawCanonical = .ok (o.filter (·.hash != Hash.none)) := by
  cases o with
  | none => rfl
  | some b =>
    by_cases hd : b = default
    · subst hd
      rfl
    · have hkeep : (some b).filter (· != default) = some b := by simp [hd]
      rw [hkeep, Option.map_some]
      obtain ⟨hash, partSetHeader⟩ := b
      -- the encoder keeps an id that is not the default; the decoder drops it if its hash is empty
      cases hash with
      | none => rfl
      | sha256 bytes =>
        have hne : (toRawCanonical ⟨.sha256 bytes, partSetHeader⟩).hash.isEmpty = false := by
          rw [List.isEmpty_eq_false_iff, ← List.length_pos_iff, toRawCanonical, Hash.toBytes,
            List.Vector.toList_length]
          decide
        rw [Option.filter_some, hne, Bool.not_false, if_pos rfl, Option.mapM_some,
          tryFromRawCanonical_toRawCanonical]
        rfl

/-- Dropping an id of empty hash changes the encoding exactly when the id is not the default. -/
theorem map_toRawCanonical_filter_filter_iff (o : Option BlockId) :
    ((o.filter (·.hash != Hash.none)).filter (· != default)).map toRawCanonical =
        (o.filter (· != default)).map toRawCanonical ↔
      ∀ b ∈ o, b.hash = .none → b = default := by
  cases o with
  | none => simp
  | some b =>
    by_cases hb : b.hash = .none
    · -- the id is dropped: the encodings agree when the encoder leaves it out as well
      have hdrop : (some b).filter (·.hash != Hash.none) = none := by
        rw [Option.filter_some, if_neg (by simp [hb])]
      rw [hdrop, Option.filter_none, Option.map_none]
      by_cases hd : b = default
      · subst hd
        simp
      · rw [Option.filter_some, if_pos (by simpa using hd), Option.map_some]
        simp [hb, hd]
    · have hkeep : (some b).filter (·.hash != Hash.none) = some b := by
        rw [Option.filter_some, if_pos (by simpa using hb)]
      rw [hkeep]
      simp [hb]

end BlockId

/-- `From<PublicKey> for RawPublicKey`. -/
def PublicKey.toRaw : PublicKey → RawPublicKeySum
  | .ed25519 b => .ed25519 b.toList
  | .secp256k1 b => .secp256k1 b.toList

/-- The `prost` encodings of the raw messages that are hashed or signed. -/
structure Prost where
  /-- `Message::encode_to_vec` of `version::Consensus`. -/
  consensusVersion : RawConsensusVersion → Bytes
  /-- `Message::encode_to_vec` of a `String` (the `StringValue` wrapper). -/
  string : String → Bytes
  /-- `Message::encode_to_vec` of an `i64` (the `Int64Value` wrapper). -/
  int64 : Int → Bytes
  /-- `Message::encode_to_vec` of a `Timestamp`. -/
  timestamp : Timestamp → Bytes
  /-- `Message::encode_to_vec` of a `types::BlockId`. -/
  blockId : RawBlockId → Bytes
  /-- `Message::encode_to_vec` of a `Vec<u8>` (the `BytesValue` wrapper). -/
  bytes : Bytes → Bytes
  /-- `Message::encode_to_vec` of a `types::SimpleValidator`. -/
  simpleValidator : RawSimpleValidator → Bytes
  /-- `Message::encode_length_delimited_to_vec` of a `types::CanonicalVote`. -/
  canonicalVoteLengthDelimited : RawCanonicalVote → Bytes

end Tendermint
