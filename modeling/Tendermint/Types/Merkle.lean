import Tendermint.Lib.Merkle
import Tendermint.Lib.Slice
import Tendermint.Types.Crypto

/-!
# The hashers of the Merkle root

`merkle.rs` computes the Merkle root with the provided method `hash_byte_vectors` of the trait
`MerkleHash`, whose methods take the hasher as `&mut self`. `MerkleHash.Impl` is such an
implementation with its state; `Impl.hashByteVectors` threads the state through the recursion as
the provided method does. There are two implementations:

* the blanket one for a hasher of the `digest` crate (`Impl.ofDigest`), which feeds `0x00` or `0x01`
  and the data to the hasher piece by piece and takes the digest with `finalize_reset`;
* `NonIncremental<H>` (`Impl.nonIncremental`), which builds the whole input in a buffer and calls the
  one-shot `H::digest` on it.

The methods' contract, "the hasher is in the reset state before and after", is `Impl.Implements`: from
a state of an invariant each method returns the value of a stateless `MerkleHash` and leaves a state
of the invariant. By induction on the recursion, `hash_byte_vectors` then returns the stateless root
(`hashByteVectors_of_implements`). The blanket implementation implements `MerkleHash.ofSha256` on the
reset states of a hasher whose incremental digest of a concatenation is the one-shot digest
(`ofDigest_implements`); the non-incremental one does so with no assumption, its buffers holding
exactly the bytes the blanket one feeds (`nonIncremental_implements`).

The stateless root is the tree hash of RFC 6962 (`hashByteVectors_treeHash`): half the next power of
two of a length `n ≥ 2` is the largest power of two below `n` (`isSplit_nextPowerOfTwo_half`).
-/

namespace Tendermint

/-- `merkle::HASH_SIZE`. -/
def hashSize : Nat := 32

/-- The split of `hash_byte_vectors`, `length.next_power_of_two() / 2`, is the split of RFC 6962. -/
theorem isSplit_nextPowerOfTwo_half {n : Nat} (hn : 2 ≤ n) :
    Merkle.IsSplit n (Rust.nextPowerOfTwo n / 2) := by
  rw [Rust.nextPowerOfTwo_half hn]
  exact Merkle.isSplit_two_pow_log2 hn

namespace MerkleHash

/-- `hash_byte_vectors` computes the tree hash of RFC 6962 of the leaves, for any three
primitives. -/
theorem hashByteVectors_treeHash (H : MerkleHash) (byteVecs : List Bytes) :
    Merkle.TreeHash H.emptyHash H.leafHash H.innerHash byteVecs (H.hashByteVectors byteVecs) := by
  induction hn : byteVecs.length using Nat.strong_induction_on generalizing byteVecs with
  | _ n ih =>
  rcases byteVecs with _ | ⟨x, _ | ⟨y, rest⟩⟩
  · rw [hashByteVectors_nil]
    exact .nil
  · rw [hashByteVectors_singleton]
    exact .singleton x
  · have hlen : 2 ≤ (x :: y :: rest).length := by simp
    have hs := Rust.nextPowerOfTwo_half_lt hlen
    have hp := Rust.nextPowerOfTwo_half_pos hlen
    rw [hashByteVectors_of_two_le H hlen]
    refine .split hlen (isSplit_nextPowerOfTwo_half hlen) (ih _ ?_ _ rfl) (ih _ ?_ _ rfl)
    · rw [List.length_take]
      omega
    · rw [List.length_drop]
      omega

/-- A `MerkleHash` implementation, with the state its `&mut self` methods read and leave. -/
structure Impl (S : Type) where
  /-- `H::default()`, the hasher `simple_hash_from_byte_vectors` starts from. -/
  default : S
  emptyHash : S → Digest × S
  leafHash : S → Bytes → Digest × S
  innerHash : S → Digest → Digest → Digest × S

namespace Impl

variable {S : Type}

/-- The provided method `MerkleHash::hash_byte_vectors`: the left subtree is hashed first, and the
right one with the hasher the left one leaves. -/
def hashByteVectors (I : Impl S) (self : S) (byteVecs : List Bytes) : Digest × S :=
  match h : byteVecs.length with
  | 0 => I.emptyHash self
  | 1 => I.leafHash self (byteVecs.headD [])
  | n + 2 =>
    have hs := Rust.nextPowerOfTwo_half_lt (n := n + 2) (by omega)
    have hp := Rust.nextPowerOfTwo_half_pos (n := n + 2) (by omega)
    let split := Rust.nextPowerOfTwo (n + 2) / 2
    let left := hashByteVectors I self (byteVecs.take split)
    let right := hashByteVectors I left.2 (byteVecs.drop split)
    I.innerHash right.2 left.1 right.1
termination_by byteVecs.length
decreasing_by
  · rw [List.length_take]; omega
  · rw [List.length_drop]; omega

/-- `merkle::simple_hash_from_byte_vectors::<H>`: the root, from a new hasher. -/
def simpleHashFromByteVectors (I : Impl S) (byteVecs : List Bytes) : Digest :=
  (I.hashByteVectors I.default byteVecs).1

/-- `I` implements the primitives of `H` on the states of `inv`: the hasher starts in such a
state, and from one each method returns the value of `H` and leaves another. -/
structure Implements (I : Impl S) (H : MerkleHash) (inv : S → Prop) : Prop where
  default : inv I.default
  emptyHash {self : S} : inv self → (I.emptyHash self).1 = H.emptyHash ∧ inv (I.emptyHash self).2
  leafHash {self : S} (bytes : Bytes) : inv self →
    (I.leafHash self bytes).1 = H.leafHash bytes ∧ inv (I.leafHash self bytes).2
  innerHash {self : S} (left right : Digest) : inv self →
    (I.innerHash self left right).1 = H.innerHash left right ∧
      inv (I.innerHash self left right).2

section Implements

variable {I : Impl S} {H : MerkleHash} {inv : S → Prop}

/-- From a state of the invariant, `hash_byte_vectors` returns the stateless root and leaves a
state of the invariant: by induction on the recursion, the right subtree being hashed from the state
the left one leaves. -/
theorem hashByteVectors_of_implements (hI : I.Implements H inv) {self : S} (hself : inv self)
    (byteVecs : List Bytes) :
    (I.hashByteVectors self byteVecs).1 = H.hashByteVectors byteVecs ∧
      inv (I.hashByteVectors self byteVecs).2 := by
  fun_induction hashByteVectors I self byteVecs with
  | case1 self byteVecs hlen =>
    rw [List.eq_nil_of_length_eq_zero hlen, MerkleHash.hashByteVectors_nil]
    exact hI.emptyHash hself
  | case2 self byteVecs hlen =>
    obtain ⟨x, rfl⟩ := List.length_eq_one_iff.mp hlen
    rw [MerkleHash.hashByteVectors_singleton]
    exact hI.leafHash x hself
  | case3 self byteVecs n hlen hs hp split left right ihl _ ihr =>
    obtain ⟨hleft, hinvl⟩ := ihl hself
    obtain ⟨hright, hinvr⟩ := ihr hinvl
    have h2 : 2 ≤ byteVecs.length := by omega
    have hsplit : Rust.nextPowerOfTwo byteVecs.length / 2 = split := by rw [hlen]
    rw [MerkleHash.hashByteVectors_of_two_le H h2, hsplit, ← hleft, ← hright]
    exact hI.innerHash _ _ hinvr

theorem simpleHashFromByteVectors_of_implements (hI : I.Implements H inv)
    (byteVecs : List Bytes) :
    I.simpleHashFromByteVectors byteVecs = Tendermint.simpleHashFromByteVectors H byteVecs :=
  (hashByteVectors_of_implements hI hI.default byteVecs).1

end Implements

end Impl

end MerkleHash

/-- A hasher of the `digest` crate, by its state: `Default::default()`, `Digest::update` and
`FixedOutputReset::finalize_reset`, which returns the digest and resets the state. -/
structure IncrementalDigest (S : Type) where
  new : S
  update : S → Bytes → S
  finalizeReset : S → Digest × S

namespace IncrementalDigest

variable {S : Type}

/-- A state a hash starts from: the new one, or one that `finalize_reset` left. -/
def IsReset (D : IncrementalDigest S) (s : S) : Prop :=
  s = D.new ∨ ∃ t, (D.finalizeReset t).2 = s

/-- The digest of what is fed to a reset hasher piece by piece is the one-shot digest `H` of the
pieces' concatenation. -/
def Lawful (D : IncrementalDigest S) (H : Sha256) : Prop :=
  ∀ s, D.IsReset s → ∀ chunks : List Bytes,
    (D.finalizeReset (chunks.foldl D.update s)).1 = H.digest chunks.flatten

theorem isReset_finalizeReset (D : IncrementalDigest S) (s : S) : D.IsReset (D.finalizeReset s).2 :=
  .inr ⟨s, rfl⟩

end IncrementalDigest

namespace MerkleHash.Impl

/-- `impl<H: Digest + FixedOutputReset> MerkleHash for H`. -/
def ofDigest {S : Type} (D : IncrementalDigest S) : Impl S where
  default := D.new
  emptyHash self := D.finalizeReset self
  leafHash self bytes := D.finalizeReset (D.update (D.update self [0x00]) bytes)
  innerHash self left right :=
    D.finalizeReset (D.update (D.update (D.update self [0x01]) left.toList) right.toList)

/-- `impl<H: Sha256> MerkleHash for NonIncremental<H>`: the state is `PhantomData`. -/
def nonIncremental (H : Sha256) : Impl Unit where
  default := ()
  emptyHash _ := (H.digest [], ())
  leafHash _ bytes :=
    -- `Vec::with_capacity(1 + bytes.len())`, `push(0)`, `extend_from_slice(bytes)`
    let buf : Bytes := [] ++ [0]
    (H.digest (buf ++ bytes), ())
  innerHash _ left right :=
    -- `[0u8; 1 + HASH_SIZE * 2]`, `buf[0] = 1`, then the two halves copied in
    let buf := (List.replicate (1 + hashSize * 2) (0 : UInt8)).set 0 1
    let buf := Slice.copyFromSlice buf 1 left.toList
    let buf := Slice.copyFromSlice buf (hashSize + 1) right.toList
    (H.digest buf, ())

/-- The buffer of `NonIncremental::inner_hash` holds `0x01` and the two digests. -/
theorem nonIncremental_innerHash_buffer (left right : Digest) :
    Slice.copyFromSlice (Slice.copyFromSlice
        ((List.replicate (1 + hashSize * 2) (0 : UInt8)).set 0 1) 1 left.toList)
      (hashSize + 1) right.toList = 0x01 :: left.toList ++ right.toList := by
  have hzeros : (List.replicate (1 + hashSize * 2) (0 : UInt8)).set 0 1 =
      [1] ++ List.replicate 32 0 ++ List.replicate 32 0 := by
    decide
  have hleft : Slice.copyFromSlice ([1] ++ List.replicate 32 0 ++ List.replicate 32 0) 1
      left.toList = [1] ++ left.toList ++ List.replicate 32 0 :=
    Slice.copyFromSlice_append (by simp)
  have hright : Slice.copyFromSlice ([1] ++ left.toList ++ List.replicate 32 0) (hashSize + 1)
      right.toList = [1] ++ left.toList ++ right.toList := by
    have h := @Slice.copyFromSlice_append _ ([1] ++ left.toList) (List.replicate 32 0) []
      right.toList (by simp)
    rw [List.append_nil, List.append_nil] at h
    rw [show hashSize + 1 = ([1] ++ left.toList).length by simp [hashSize, Nat.add_comm]]
    exact h
  rw [hzeros, hleft, hright]
  rfl

variable {S : Type} {D : IncrementalDigest S} {H : Sha256}

/-- The blanket implementation implements `MerkleHash.ofSha256 H` on the reset states of a lawful
hasher: each method feeds one, two or three pieces and finalizes. -/
theorem ofDigest_implements (hD : D.Lawful H) :
    (ofDigest D).Implements (MerkleHash.ofSha256 H) D.IsReset where
  default := .inl rfl
  emptyHash hself := ⟨hD _ hself [], D.isReset_finalizeReset _⟩
  leafHash bytes hself := by
    refine ⟨?_, D.isReset_finalizeReset _⟩
    have h := hD _ hself [[0x00], bytes]
    simp only [List.foldl_cons, List.foldl_nil, List.flatten_cons, List.flatten_nil,
      List.append_nil, List.singleton_append] at h
    exact h
  innerHash left right hself := by
    refine ⟨?_, D.isReset_finalizeReset _⟩
    have h := hD _ hself [[0x01], left.toList, right.toList]
    simp only [List.foldl_cons, List.foldl_nil, List.flatten_cons, List.flatten_nil,
      List.append_nil, List.singleton_append] at h
    exact h

/-- `NonIncremental<H>` implements `MerkleHash.ofSha256 H` from any state. -/
theorem nonIncremental_implements (H : Sha256) :
    (nonIncremental H).Implements (MerkleHash.ofSha256 H) fun _ => True where
  default := trivial
  emptyHash _ := ⟨rfl, trivial⟩
  leafHash _ _ := ⟨rfl, trivial⟩
  innerHash left right _ := by
    refine ⟨?_, trivial⟩
    show H.digest _ = H.digest _
    rw [nonIncremental_innerHash_buffer]

/-- The root of `simple_hash_from_byte_vectors::<H>`, for a hasher whose incremental digest of a
concatenation is the one-shot digest `H`, is the tree hash of RFC 6962 with `H()`,
`H(0x00 || x)` and `H(0x01 || left || right)`, and it is the root of
`simple_hash_from_byte_vectors::<NonIncremental<H>>`. -/
theorem simpleHashFromByteVectors_rfc6962 (D : IncrementalDigest S) (H : Sha256) (hD : D.Lawful H)
    (byteVecs : List Bytes) :
    (∀ root, Merkle.TreeHash (H.digest []) (fun leaf => H.digest (0x00 :: leaf))
        (fun left right => H.digest (0x01 :: left.toList ++ right.toList)) byteVecs root ↔
      root = (ofDigest D).simpleHashFromByteVectors byteVecs) ∧
    (ofDigest D).simpleHashFromByteVectors byteVecs =
      (nonIncremental H).simpleHashFromByteVectors byteVecs := by
  have hinc := simpleHashFromByteVectors_of_implements (ofDigest_implements hD) byteVecs
  have hnon := simpleHashFromByteVectors_of_implements (nonIncremental_implements H) byteVecs
  refine ⟨?_, hinc.trans hnon.symm⟩
  rw [hinc]
  exact (MerkleHash.hashByteVectors_treeHash (MerkleHash.ofSha256 H) byteVecs).iff_eq

end MerkleHash.Impl

namespace IncrementalDigest

/-- A hasher that keeps what it is fed and digests it all at `finalize_reset`. -/
def buffered (H : Sha256) : IncrementalDigest Bytes where
  new := []
  update buffer bytes := buffer ++ bytes
  finalizeReset buffer := (H.digest buffer, [])

theorem foldl_update_buffered (H : Sha256) (buffer : Bytes) (chunks : List Bytes) :
    chunks.foldl (buffered H).update buffer = buffer ++ chunks.flatten := by
  induction chunks generalizing buffer with
  | nil => simp
  | cons chunk chunks ih =>
    rw [List.foldl_cons, ih, List.flatten_cons, ← List.append_assoc]
    rfl

/-- The buffering hasher is lawful: its reset state is the empty buffer. -/
theorem buffered_lawful (H : Sha256) : (buffered H).Lawful H := by
  rintro s (rfl | ⟨t, rfl⟩) chunks
  · show H.digest _ = _
    rw [foldl_update_buffered]
    rfl
  · show H.digest _ = _
    rw [foldl_update_buffered]
    rfl

end IncrementalDigest

/-- A stand-in for SHA-256: the length of the input, in each byte. -/
def Sha256.byLength : Sha256 := ⟨fun bytes => List.Vector.replicate 32 (UInt8.ofNat bytes.length)⟩

theorem simpleHashFromByteVectors_rfc6962_on_buffered :
    (IncrementalDigest.buffered Sha256.byLength).Lawful Sha256.byLength ∧
      (MerkleHash.Impl.ofDigest (IncrementalDigest.buffered Sha256.byLength)).simpleHashFromByteVectors
          [[0x4c], [], [1, 2]] =
        (MerkleHash.Impl.nonIncremental Sha256.byLength).simpleHashFromByteVectors
          [[0x4c], [], [1, 2]] :=
  have hD := IncrementalDigest.buffered_lawful Sha256.byLength
  ⟨hD, (MerkleHash.Impl.simpleHashFromByteVectors_rfc6962 _ _ hD [[0x4c], [], [1, 2]]).2⟩

end Tendermint
