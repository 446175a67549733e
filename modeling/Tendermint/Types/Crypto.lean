import Tendermint.Lib.Rust
import Tendermint.Types.Identifiers

/-!
# Crypto providers and the Merkle root

The light client reaches cryptography through two traits of `tendermint::crypto`: a SHA-256
implementation (`crypto/sha256.rs`) and a signature verifier (`crypto/signature.rs`). Their
implementations live in other crates (`sha2`, `ed25519-consensus`, or host functions), so they are
parameters here: a `Sha256` is a digest function and a `Signature.Verifier` a verification
predicate. Neither is assumed to be anything but a function of its inputs. The conversions of
public keys reach RIPEMD-160 and the Secp256k1 curve as well, through `KeyCrypto`.

`merkle.rs` is source and is modelled as written: `MerkleHash` is the trait's three primitives, its
blanket implementation for a `Digest` (`MerkleHash.ofSha256`, feeding `0x00` or `0x01` and then the
data, and taking the digest of what was fed), and the provided method `hash_byte_vectors`, which
splits a list of leaves at the largest power of two below its length.
-/

namespace Tendermint

/-- `merkle::Hash`: a 32-byte digest. -/
abbrev Digest := List.Vector UInt8 32

/-- `crypto::Sha256`: a one-shot SHA-256 digest. -/
structure Sha256 where
  digest : Bytes → Digest

/-- What the conversions of public keys take from other crates: `sha2`'s SHA-256, `ripemd`'s
RIPEMD-160, and `k256`'s decoding of a Secp256k1 key from SEC1 bytes, as the compressed encoding of
the key it decodes. -/
structure KeyCrypto where
  sha256 : Sha256
  ripemd160 : Bytes → List.Vector UInt8 20
  fromSec1Bytes : Bytes → Option (List.Vector UInt8 33)

/-- `crypto::signature::Verifier`: whether a signature of a message verifies under a key (the
error kind of a failure is never read). -/
structure Signature.Verifier where
  verify : PublicKey → Bytes → Signature → Bool

/-- `merkle::MerkleHash`. -/
structure MerkleHash where
  emptyHash : Digest
  leafHash : Bytes → Digest
  innerHash : Digest → Digest → Digest

namespace MerkleHash

/-- `impl<H: Digest> MerkleHash for H`: `tmhash({})`, `tmhash(0x00 || leaf)` and
`tmhash(0x01 || left || right)`. -/
def ofSha256 (H : Sha256) : MerkleHash where
  emptyHash := H.digest []
  leafHash bytes := H.digest (0x00 :: bytes)
  innerHash left right := H.digest (0x01 :: left.toList ++ right.toList)

/-- `MerkleHash::hash_byte_vectors`. -/
def hashByteVectors (H : MerkleHash) (byteVecs : List Bytes) : Digest :=
  match h : byteVecs.length with
  | 0 => H.emptyHash
  | 1 => H.leafHash (byteVecs.headD [])
  | n + 2 =>
    have hs := Rust.nextPowerOfTwo_half_lt (n := n + 2) (by omega)
    have hp := Rust.nextPowerOfTwo_half_pos (n := n + 2) (by omega)
    let split := Rust.nextPowerOfTwo (n + 2) / 2
    H.innerHash (hashByteVectors H (byteVecs.take split)) (hashByteVectors H (byteVecs.drop split))
termination_by byteVecs.length
decreasing_by
  · rw [List.length_take]; omega
  · rw [List.length_drop]; omega

theorem hashByteVectors_nil (H : MerkleHash) : H.hashByteVectors [] = H.emptyHash := by
  rw [hashByteVectors]
  rfl

theorem hashByteVectors_singleton (H : MerkleHash) (byteVec : Bytes) :
    H.hashByteVectors [byteVec] = H.leafHash byteVec := by
  rw [hashByteVectors]
  rfl

/-- Two or more leaves are split at half the next power of two of their number. -/
theorem hashByteVectors_of_two_le (H : MerkleHash) {byteVecs : List Bytes}
    (hlen : 2 ≤ byteVecs.length) :
    H.hashByteVectors byteVecs =
      H.innerHash (H.hashByteVectors (byteVecs.take (Rust.nextPowerOfTwo byteVecs.length / 2)))
        (H.hashByteVectors (byteVecs.drop (Rust.nextPowerOfTwo byteVecs.length / 2))) := by
  rw [hashByteVectors]
  split
  · omega
  · omega
  · rename_i n h
    rw [h]

end MerkleHash

/-- `merkle::simple_hash_from_byte_vectors::<H>`. -/
def simpleHashFromByteVectors (H : MerkleHash) (byteVecs : List Bytes) : Digest :=
  H.hashByteVectors byteVecs

end Tendermint
