import Tendermint.Types.Scalars

/-!
# Hashes, identifiers, keys and block ids

`hash::Hash` (`hash.rs`), `account::Id` (`account.rs`), `chain::Id` (`chain/id.rs`), `PublicKey`
(`public_key.rs`), `Signature` (`signature.rs`), and the block identifiers `block::parts::Header`
and `block::Id` (`block/parts.rs`, `block/id.rs`), with their byte conversions.

Fixed-size byte arrays `[u8; N]` are `List.Vector UInt8 N`. `account::Id` derives `Ord` from its
`[u8; 20]`, which compares lexicographically; it is ordered here by the lexicographic order of its
bytes as natural numbers. A `chain::Id` carries the validity check of its only constructor.
-/

namespace Tendermint

/-- `hash::Hash`: a SHA-256 digest, or the empty hash (the `Default`). -/
inductive Hash
  | sha256 (bytes : List.Vector UInt8 32)
  | none
deriving DecidableEq

namespace Hash

instance : Inhabited Hash := ⟨.none⟩

/-- `From<Hash> for Vec<u8>`. -/
def toBytes : Hash → Bytes
  | .sha256 b => b.toList
  | .none => []

/-- `Hash::from_bytes(Algorithm::Sha256, bytes)`. -/
def fromBytes (bytes : Bytes) : Except Error Hash :=
  if bytes.isEmpty then .ok .none
  else if h : bytes.length = 32 then .ok (.sha256 ⟨bytes, h⟩)
  else .error .invalidHashSize

/-- `TryFrom<Vec<u8>> for Hash`. -/
def tryFromBytes (value : Bytes) : Except Error Hash :=
  if value.isEmpty then .ok .none else fromBytes value

@[simp] theorem fromBytes_toBytes (h : Hash) : fromBytes h.toBytes = .ok h := by
  cases h with
  | sha256 b =>
    obtain ⟨l, hl⟩ := b
    have hne : l.isEmpty = false := by
      rw [List.isEmpty_eq_false_iff, ← List.length_pos_iff]; omega
    simp [fromBytes, toBytes, hne, hl, List.Vector.toList]
  | none => rfl

@[simp] theorem tryFromBytes_toBytes (h : Hash) : tryFromBytes h.toBytes = .ok h := by
  unfold tryFromBytes
  split
  · next he =>
    cases h with
    | sha256 b =>
      obtain ⟨l, hl⟩ := b
      simp only [toBytes, List.Vector.toList, List.isEmpty_iff] at he
      simp [he] at hl
    | none => rfl
  · exact fromBytes_toBytes h

end Hash

/-- `account::Id`: a 20-byte validator address. -/
structure AccountId where
  bytes : List.Vector UInt8 20
deriving DecidableEq

namespace AccountId

/-- The bytes as numbers, compared lexicographically by the derived `Ord` of `[u8; 20]`. -/
def lexKey (a : AccountId) : List Nat := a.bytes.toList.map UInt8.toNat

theorem lexKey_injective : Function.Injective lexKey := by
  rintro ⟨⟨l₁, h₁⟩⟩ ⟨⟨l₂, h₂⟩⟩ e
  have e' : l₁ = l₂ := List.map_injective_iff.mpr (fun a b h => UInt8.toNat_inj.mp h) e
  subst e'
  rfl

instance : LinearOrder AccountId := LinearOrder.lift' lexKey lexKey_injective

/-- `TryFrom<Vec<u8>> for account::Id`. -/
def tryFromBytes (value : Bytes) : Except Error AccountId :=
  if h : value.length = 20 then .ok ⟨⟨value, h⟩⟩ else .error .invalidAccountIdLength

/-- `From<account::Id> for Vec<u8>`. -/
def toBytes (a : AccountId) : Bytes := a.bytes.toList

@[simp] theorem tryFromBytes_toBytes (a : AccountId) : tryFromBytes a.toBytes = .ok a := by
  obtain ⟨⟨l, hl⟩⟩ := a
  simp [tryFromBytes, toBytes, List.Vector.toList, hl]

theorem toBytes_of_tryFromBytes {value : Bytes} {a : AccountId} (h : tryFromBytes value = .ok a) :
    a.toBytes = value := by
  unfold tryFromBytes at h
  split at h
  · cases h
    rfl
  · cases h

@[simp] theorem length_toBytes (a : AccountId) : a.toBytes.length = 20 :=
  a.bytes.toList_length

@[simp] theorem isEmpty_toBytes (a : AccountId) : a.toBytes.isEmpty = false := by
  rw [List.isEmpty_eq_false_iff, ← List.length_pos_iff, length_toBytes]
  decide

end AccountId

/-- `node::Id`: the 20-byte id of a peer. -/
structure NodeId where
  bytes : List.Vector UInt8 20
deriving DecidableEq

/-- `chain::Id`'s check of a name: non-empty, at most `MAX_LENGTH = 50` bytes, and only the bytes
`a-z`, `A-Z`, `0-9`, `-`, `_` and `.`. -/
def ChainId.validate (value : String) : Except Error Unit :=
  if value.isEmpty || decide (50 < value.utf8ByteSize) then .error .length
  else if value.toList.all (fun c => c.isAlphanum || c = '-' || c = '_' || c = '.') then .ok ()
  else .error (.parse "chain id charset")

/-- `chain::Id`: a chain name that passed `TryFrom<String>`. -/
structure ChainId where
  id : String
  valid : ChainId.validate id = .ok ()

namespace ChainId

instance : DecidableEq ChainId := fun a b =>
  decidable_of_iff (a.id = b.id) ⟨fun h => by cases a; cases b; cases h; rfl, fun h => h ▸ rfl⟩

/-- `TryFrom<String> for chain::Id`. -/
def tryFrom (value : String) : Except Error ChainId :=
  match h : validate value with
  | .ok () => .ok ⟨value, h⟩
  | .error e => .error e

@[simp] theorem tryFrom_id (c : ChainId) : tryFrom c.id = .ok c := by
  obtain ⟨id, hv⟩ := c
  unfold tryFrom
  split
  · rfl
  · next e h => rw [hv] at h; cases h

theorem toOption_tryFrom_of_invalid {value : String} (h : validate value ≠ .ok ()) :
    (tryFrom value).toOption = none := by
  unfold tryFrom
  split
  · next hv => exact absurd hv h
  · rfl

end ChainId

/-- `PublicKey`: an Ed25519 verification key, or a Secp256k1 key (feature `secp256k1`). -/
inductive PublicKey
  | ed25519 (bytes : List.Vector UInt8 32)
  | secp256k1 (bytes : List.Vector UInt8 33)
deriving DecidableEq

/-- `Signature`: the 64 bytes `Signature::new` accepts. -/
structure Signature where
  bytes : List.Vector UInt8 64
deriving DecidableEq

namespace Signature

/-- `Signature::new`: no signature for no bytes, a signature for `SIGNATURE_LENGTH = 64` bytes, and
an error for any other length. -/
def new (bytes : Bytes) : Except Error (Option Signature) :=
  if bytes.isEmpty then .ok none
  else if h : bytes.length = 64 then .ok (some ⟨⟨bytes, h⟩⟩)
  else .error (.signatureInvalid ("expected signature to be 64 bytes long, but was " ++
    toString bytes.length ++ " bytes"))

/-- `Signature::into_bytes`. -/
def intoBytes (s : Signature) : Bytes := s.bytes.toList

@[simp] theorem length_intoBytes (s : Signature) : s.intoBytes.length = 64 :=
  s.bytes.toList_length

@[simp] theorem isEmpty_intoBytes (s : Signature) : s.intoBytes.isEmpty = false := by
  rw [List.isEmpty_eq_false_iff, ← List.length_pos_iff, length_intoBytes]
  decide

theorem new_intoBytes (s : Signature) : new s.intoBytes = .ok (some s) := by
  have hne := isEmpty_intoBytes s
  obtain ⟨⟨l, hl⟩⟩ := s
  simp only [intoBytes, List.Vector.toList] at hne ⊢
  simp [new, hne, hl]

/-- `Signature::new` reads back what `unwrap_or_default` of `into_bytes` writes. -/
theorem new_getD_map_intoBytes (o : Option Signature) : new ((o.map intoBytes).getD []) = .ok o := by
  cases o with
  | none => rfl
  | some s => exact new_intoBytes s

/-- What `Signature::new` accepts, `unwrap_or_default` of `into_bytes` gives back. -/
theorem getD_map_intoBytes_of_new {bytes : Bytes} {o : Option Signature} (h : new bytes = .ok o) :
    (o.map intoBytes).getD [] = bytes := by
  unfold new at h
  split at h
  · next he =>
    cases h
    exact (List.isEmpty_iff.mp he).symm
  · split at h
    · cases h
      rfl
    · cases h

/-- A signature that `Signature::new` reads from bytes that are not empty has 64 of them. -/
theorem length_of_new {bytes : Bytes} {o : Option Signature} (h : new bytes = .ok o)
    (hne : bytes ≠ []) : ∃ s, o = some s ∧ s.intoBytes = bytes := by
  have hget := getD_map_intoBytes_of_new h
  cases o with
  | none => exact absurd hget.symm hne
  | some s => exact ⟨s, rfl, hget⟩

end Signature

/-- `block::parts::Header`. -/
structure PartSetHeader where
  total : UInt32
  hash : Hash
deriving DecidableEq

instance : Inhabited PartSetHeader := ⟨⟨0, .none⟩⟩

/-- `block::Id`; its `Default` (an empty hash and an empty part set header) stands for Go's nil
block id. -/
structure BlockId where
  hash : Hash
  partSetHeader : PartSetHeader
deriving DecidableEq

instance : Inhabited BlockId := ⟨⟨.none, default⟩⟩

end Tendermint
