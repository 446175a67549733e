import Tendermint.Lib.Slice
import Tendermint.Types.Crypto
import Tendermint.Types.Proto

/-!
# Validator sets

`validator::Info` and `validator::Set` (`validator.rs`): the validators of a set, the constructor
`Set::try_from_parts` behind `Set::new`, `TryFrom<RawValidatorSet>` and deserialization, with its cap
on the total voting power and its canonical order (power descending, then address ascending), the
lookup by address, and the Merkle hash of the set.

The fields of `Set` are public in the source, so a `Set` may hold any validators and any total; only
the constructor establishes the cap and the order. What it establishes is `Set.Canonical`: the
constructor succeeds exactly when the exact sum of the powers is within the cap and the declared
total is `0` or that sum (`tryFromParts_eq_ok`: the saturating sum it computes cannot wrap below the
cap), and it then sorts the validators and records the sum (`canonical_of_tryFromParts`). The sort key
tells validators with distinct addresses apart, so every order of them gives one set
(`tryFromParts_perm`).
-/

namespace Tendermint

namespace Validator

/-- `validator::Info`. -/
structure Info where
  address : AccountId
  pubKey : PublicKey
  power : Power
  name : Option String
  proposerPriority : Int
deriving DecidableEq

/-- `SimpleValidator::from(&Info)` as the raw message it is encoded through. -/
def Info.toRawSimpleValidator (v : Info) : RawSimpleValidator :=
  ⟨some v.pubKey.toRaw, v.power.value⟩

/-- `Info::hash_bytes`: the leaf of the validator in the set's Merkle tree. -/
def Info.hashBytes (P : Prost) (v : Info) : Bytes :=
  P.simpleValidator v.toRawSimpleValidator

/-- The sort key of `Set::sort_validators`: `(Reverse(power), address)`. -/
def Info.sortKey (v : Info) : Lex (ℕᵒᵈ × AccountId) :=
  toLex (OrderDual.toDual v.power.value, v.address)

/-- The order of the sort key: power descending, then address ascending. -/
theorem Info.sortKey_le_sortKey {a b : Info} :
    a.sortKey ≤ b.sortKey ↔
      b.power.value < a.power.value ∨ (a.power.value = b.power.value ∧ a.address ≤ b.address) := by
  rw [Info.sortKey, Info.sortKey, Prod.Lex.toLex_le_toLex]
  simp only [OrderDual.toDual_lt_toDual, EmbeddingLike.apply_eq_iff_eq]

/-- `validator::Set`. -/
structure Set where
  validators : List Info
  proposer : Option Info
  totalVotingPower : Power
deriving DecidableEq

namespace Set

/-- `Set::MAX_TOTAL_VOTING_POWER = i64::MAX / 8`. -/
def maxTotalVotingPower : Nat := (2 ^ 63 - 1) / 8

/-- `Set::sort_validators`. -/
def sortValidators (vals : List Info) : List Info :=
  Slice.sortByKey Info.sortKey vals

/-- The sum of the powers as `try_from_parts` folds it, saturating at `u64::MAX`. -/
def saturatingTotal (vals : List Info) : Nat :=
  vals.foldl (fun acc v => min (acc + v.power.value) (2 ^ 64 - 1)) 0

/-- `Set::try_from_parts`. -/
def tryFromParts (validators : List Info) (proposer : Option Info)
    (unvalidatedTotalVotingPower : Int) : Except Error Set :=
  let total := saturatingTotal validators
  if h : total > maxTotalVotingPower then .error .totalVotingPowerOverflow
  else
    have hp : total < i64Bound := by unfold maxTotalVotingPower i64Bound at *; omega
    let totalVotingPower : Power := ⟨total, hp⟩
    if unvalidatedTotalVotingPower ≠ 0 then
      match Power.tryFromI64 unvalidatedTotalVotingPower with
      | .error e => .error e
      | .ok given =>
        if given ≠ totalVotingPower then .error .totalVotingPowerMismatch
        else .ok ⟨sortValidators validators, proposer, totalVotingPower⟩
    else .ok ⟨sortValidators validators, proposer, totalVotingPower⟩

/-- `Set::validator`: the first validator with the address. -/
def validator (s : Set) (valId : AccountId) : Option Info :=
  s.validators.find? (fun v => v.address = valId)

/-- `Set::hash_with::<H>`. -/
def hashWith (H : MerkleHash) (P : Prost) (s : Set) : Hash :=
  .sha256 (simpleHashFromByteVectors H (s.validators.map (Info.hashBytes P)))

/-! ### What `try_from_parts` establishes -/

/-- The representation invariant of a set built by `try_from_parts`: the validators in the
canonical order, and a total that is the sum of their powers, within the cap. -/
structure Canonical (s : Set) : Prop where
  sorted : s.validators.Pairwise fun a b => a.sortKey ≤ b.sortKey
  total_eq : s.totalVotingPower.value = (s.validators.map fun v => v.power.value).sum
  total_le : s.totalVotingPower.value ≤ maxTotalVotingPower

theorem maxTotalVotingPower_lt : maxTotalVotingPower < 2 ^ 64 - 1 := by
  unfold maxTotalVotingPower
  omega

theorem saturatingTotal_eq (vals : List Info) :
    saturatingTotal vals = min (vals.map fun v => v.power.value).sum (2 ^ 64 - 1) := by
  rw [saturatingTotal, Rust.foldl_saturatingAdd (fun v : Info => v.power.value) _ vals 0
    (Nat.zero_le _), Nat.zero_add]

/-- The saturating sum is within the cap exactly when the exact sum is, and is then the exact
sum. -/
theorem saturatingTotal_le_iff {vals : List Info} :
    saturatingTotal vals ≤ maxTotalVotingPower ↔
      (vals.map fun v => v.power.value).sum ≤ maxTotalVotingPower := by
  have := maxTotalVotingPower_lt
  rw [saturatingTotal_eq]
  omega

/-- `try_from_parts` succeeds exactly when the exact sum of the powers is within the cap and the
declared total is `0` or that sum; the set it builds holds the validators sorted, the proposer, and
that sum as its total. -/
theorem tryFromParts_eq_ok {vals : List Info} {proposer : Option Info} {declared : Int} {s : Set} :
    tryFromParts vals proposer declared = .ok s ↔
      (vals.map fun v => v.power.value).sum ≤ maxTotalVotingPower ∧
        (declared = 0 ∨ declared = (vals.map fun v => v.power.value).sum) ∧
        s.validators = sortValidators vals ∧ s.proposer = proposer ∧
        s.totalVotingPower.value = (vals.map fun v => v.power.value).sum := by
  unfold tryFromParts
  dsimp only
  split
  · next hgt =>
    -- over the cap: `TotalVotingPowerOverflow`
    simp only [reduceCtorEq, false_iff, not_and]
    intro hle
    exact absurd (saturatingTotal_le_iff.mpr hle) (Nat.not_le_of_gt hgt)
  · next hle =>
    have hcap := saturatingTotal_le_iff.mp (Nat.le_of_not_gt hle)
    have htotal : saturatingTotal vals = (vals.map fun v => v.power.value).sum := by
      have := maxTotalVotingPower_lt
      rw [saturatingTotal_eq]
      omega
    -- the set that both successful branches build
    have hbuilt : ∀ hp : saturatingTotal vals < i64Bound,
        (Except.ok ⟨sortValidators vals, proposer, ⟨saturatingTotal vals, hp⟩⟩ : Except Error Set) =
          .ok s ↔ s.validators = sortValidators vals ∧ s.proposer = proposer ∧
            s.totalVotingPower.value = (vals.map fun v => v.power.value).sum := by
      intro hp
      obtain ⟨validators, proposer', total⟩ := s
      rw [Except.ok.injEq, Set.mk.injEq, Power.ext_iff']
      show sortValidators vals = validators ∧ proposer = proposer' ∧
          saturatingTotal vals = total.value ↔ validators = sortValidators vals ∧
            proposer' = proposer ∧ total.value = (vals.map fun v => v.power.value).sum
      rw [htotal]
      exact and_congr eq_comm (and_congr eq_comm eq_comm)
    split
    · next hd =>
      split
      · next e he =>
        -- a declared total that is not a power: the conversion's error
        simp only [reduceCtorEq, false_iff, not_and]
        rintro - (hd' | hd')
        · exact absurd hd' hd
        · have hsum : (vals.map fun v => v.power.value).sum < i64Bound := by
            unfold maxTotalVotingPower i64Bound at *
            omega
          rw [(Power.tryFromI64_eq_ok (p := ⟨_, hsum⟩)).mpr hd'] at he
          cases he
      · next given hg =>
        have hgiven := Power.tryFromI64_eq_ok.mp hg
        split
        · next hne =>
          -- a declared total other than the sum: `TotalVotingPowerMismatch`
          simp only [reduceCtorEq, false_iff, not_and]
          rintro - (hd' | hd')
          · exact absurd hd' hd
          · have hsame : given.value = saturatingTotal vals := by omega
            exact absurd (Power.ext_iff'.mpr hsame) hne
        · next heq =>
          rw [hbuilt]
          have hd' : declared = (vals.map fun v => v.power.value).sum := by
            rw [hgiven, not_not.mp heq]
            exact congrArg Nat.cast htotal
          simp only [hcap, hd', or_true, true_and]
    · next hd =>
      rw [hbuilt]
      simp only [hcap, not_not.mp hd, true_or, true_and]

theorem Canonical.sum_le {s : Set} (hs : s.Canonical) :
    (s.validators.map fun v => v.power.value).sum ≤ maxTotalVotingPower :=
  hs.total_eq ▸ hs.total_le

/-- What a set built by `try_from_parts` holds: a permutation of the validators it was given, and
the representation invariant. -/
theorem canonical_of_tryFromParts {vals : List Info} {proposer : Option Info} {declared : Int}
    {s : Set} (h : tryFromParts vals proposer declared = .ok s) :
    s.validators.Perm vals ∧ s.Canonical := by
  obtain ⟨hcap, -, hvals, -, htotal⟩ := tryFromParts_eq_ok.mp h
  have hperm : s.validators.Perm vals := hvals ▸ Slice.sortByKey_perm _ vals
  have hsum : (s.validators.map fun v => v.power.value).sum =
      (vals.map fun v => v.power.value).sum := (hperm.map _).sum_nat
  refine ⟨hperm, ⟨?_, ?_, ?_⟩⟩
  · rw [hvals]
    exact Slice.sortByKey_sorted _ vals
  · rw [htotal, hsum]
  · rw [htotal]
    exact hcap

/-- Validators with distinct addresses are sorted into one order whatever order they come in. -/
theorem sortValidators_eq_of_perm {vals vals' : List Info} (hp : vals'.Perm vals)
    (haddr : (vals.map fun v => v.address).Nodup) :
    sortValidators vals' = sortValidators vals := by
  -- the address is the second component of the sort key, so the keys are distinct too
  have hkey : (vals'.map Info.sortKey).Nodup := by
    apply List.Nodup.of_map fun k => (ofLex k).2
    rw [List.map_map]
    exact (hp.map _).nodup_iff.mpr haddr
  exact Slice.sortByKey_eq_of_perm hp hkey

/-- `try_from_parts` builds one set from every order of validators with distinct addresses. -/
theorem tryFromParts_perm {vals vals' : List Info} (hp : vals'.Perm vals)
    (haddr : (vals.map fun v => v.address).Nodup) (proposer : Option Info) (declared : Int) :
    tryFromParts vals' proposer declared = tryFromParts vals proposer declared := by
  have htotal : saturatingTotal vals' = saturatingTotal vals := by
    rw [saturatingTotal_eq, saturatingTotal_eq, (hp.map _).sum_nat]
  unfold tryFromParts
  simp only [htotal, sortValidators_eq_of_perm hp haddr]

/-- `try_from_parts` rebuilds a canonical set from its own parts. -/
theorem tryFromParts_of_canonical {s : Set} (hs : s.Canonical) :
    tryFromParts s.validators s.proposer s.totalVotingPower.toI64 = .ok s := by
  apply tryFromParts_eq_ok.mpr
  refine ⟨hs.sum_le, Or.inr ?_, (Slice.sortByKey_of_sorted hs.sorted).symm, rfl, hs.total_eq⟩
  show (s.totalVotingPower.value : Int) = _
  rw [hs.total_eq]

end Set

end Validator

/-! ## Validators on the wire

`TryFrom<RawValidator> for Info` checks that the address is the one derived from the key and reads
no name; `TryFrom<RawValidatorSet> for Set` goes through `Set::try_from_parts`, which sorts and
checks the total. A validator without a name, with the address of its key and a key that decodes,
comes back (`Info.tryFromRaw_toRaw`), and so does a canonical set of such validators
(`Set.tryFromRaw_toRaw`). -/

/-- `crypto::PublicKey`: the oneof of the key kinds, which may be unset. -/
structure RawPublicKey where
  sum : Option RawPublicKeySum
deriving DecidableEq

/-- `types::Validator`. -/
structure RawValidator where
  address : Bytes
  pubKey : Option RawPublicKey
  votingPower : Int
  proposerPriority : Int
deriving DecidableEq

/-- `types::ValidatorSet`. -/
structure RawValidatorSet where
  validators : List RawValidator
  proposer : Option RawValidator
  totalVotingPower : Int
deriving DecidableEq

namespace AccountId

/-- `From<Ed25519> for account::Id`: `SHA256(pk)[:20]`. -/
def fromEd25519 (K : KeyCrypto) (bytes : Bytes) : AccountId :=
  ⟨⟨(K.sha256.digest bytes).toList.take 20, by simp⟩⟩

/-- `From<Secp256k1> for account::Id`: `RIPEMD160(SHA256(pk))`. -/
def fromSecp256k1 (K : KeyCrypto) (bytes : Bytes) : AccountId :=
  ⟨K.ripemd160 (K.sha256.digest bytes).toList⟩

/-- `From<PublicKey> for account::Id`, of the key's bytes (`to_sec1_bytes` for Secp256k1). -/
def fromPublicKey (K : KeyCrypto) : PublicKey → AccountId
  | .ed25519 pk => fromEd25519 K pk.toList
  | .secp256k1 pk => fromSecp256k1 K pk.toList

/-- `TryFrom<RawPublicKey> for account::Id`: the same digests, of raw key bytes of any length. -/
def tryFromRawPublicKey (K : KeyCrypto) (value : RawPublicKey) : Except Error AccountId :=
  match value.sum with
  | none => .error (.invalidKey "empty sum")
  | some (.ed25519 b) => .ok (fromEd25519 K b)
  | some (.secp256k1 b) => .ok (fromSecp256k1 K b)

theorem tryFromRawPublicKey_toRaw (K : KeyCrypto) (pk : PublicKey) :
    tryFromRawPublicKey K ⟨some pk.toRaw⟩ = .ok (fromPublicKey K pk) := by
  cases pk with
  | ed25519 b => rfl
  | secp256k1 b => rfl

end AccountId

namespace PublicKey

/-- `TryFrom<RawPublicKey> for PublicKey`. -/
def tryFromRaw (K : KeyCrypto) (value : RawPublicKey) : Except Error PublicKey :=
  match value.sum with
  | none => .error (.invalidKey "empty sum")
  | some (.ed25519 b) =>
    if h : b.length = 32 then .ok (.ed25519 ⟨b, h⟩)
    else .error (.invalidKey "invalid ed25519 key length")
  | some (.secp256k1 b) =>
    match K.fromSec1Bytes b with
    | some key => .ok (.secp256k1 key)
    | none => .error (.invalidKey "malformed key")

/-- A key that decodes from its encoding: every Ed25519 key, and a Secp256k1 key that `k256`
decodes back from its SEC1 bytes, as it does every `VerifyingKey`. -/
def Decodable (K : KeyCrypto) : PublicKey → Prop
  | .ed25519 _ => True
  | .secp256k1 pk => K.fromSec1Bytes pk.toList = some pk

theorem tryFromRaw_toRaw {K : KeyCrypto} {pk : PublicKey} (h : pk.Decodable K) :
    tryFromRaw K ⟨some pk.toRaw⟩ = .ok pk := by
  cases pk with
  | ed25519 b =>
    obtain ⟨l, hl⟩ := b
    simp only [tryFromRaw, toRaw, List.Vector.toList_mk, hl, dite_true]
  | secp256k1 b =>
    have hdec : K.fromSec1Bytes b.toList = some b := h
    simp only [tryFromRaw, toRaw, hdec]

end PublicKey

namespace Validator

/-- `TryFrom<RawValidator> for Info`: the address must be the one of the key, and no name is
read. -/
def Info.tryFromRaw (K : KeyCrypto) (value : RawValidator) : Except Error Info := do
  let rawPubKey ← match value.pubKey with
    | none => throw .missingPublicKey
    | some rawPubKey => pure rawPubKey
  let address ← AccountId.tryFromBytes value.address
  let derived ← AccountId.tryFromRawPublicKey K rawPubKey
  if derived ≠ address then throw .invalidValidatorAddress
  let pubKey ← PublicKey.tryFromRaw K rawPubKey
  let power ← Power.tryFromI64 value.votingPower
  pure { address, pubKey, power, name := none, proposerPriority := value.proposerPriority }

/-- `From<Info> for RawValidator`. -/
def Info.toRaw (value : Info) : RawValidator where
  address := value.address.toBytes
  pubKey := some ⟨some value.pubKey.toRaw⟩
  votingPower := value.power.toI64
  proposerPriority := value.proposerPriority

/-- What a raw validator keeps of a validator: it has no name, the address of its key, and a key
that decodes. -/
structure Info.Encodable (K : KeyCrypto) (v : Info) : Prop where
  name_eq : v.name = none
  address_eq : v.address = AccountId.fromPublicKey K v.pubKey
  decodable : v.pubKey.Decodable K

theorem Info.tryFromRaw_toRaw {K : KeyCrypto} {v : Info} (hv : v.Encodable K) :
    Info.tryFromRaw K v.toRaw = .ok v := by
  obtain ⟨address, pubKey, power, name, proposerPriority⟩ := v
  obtain ⟨hname, haddr, hkey⟩ := hv
  dsimp only at hname haddr hkey
  subst hname haddr
  simp only [tryFromRaw, toRaw, AccountId.tryFromBytes_toBytes,
    AccountId.tryFromRawPublicKey_toRaw, PublicKey.tryFromRaw_toRaw hkey, Power.tryFromI64_toI64,
    Rust.pure_eq_ok, Rust.ok_bind, ne_eq, not_true_eq_false, if_false]

/-- `TryFrom<RawValidatorSet> for Set`. -/
def Set.tryFromRaw (K : KeyCrypto) (value : RawValidatorSet) : Except Error Set := do
  let validators ← value.validators.mapM (Info.tryFromRaw K)
  let proposer ← value.proposer.mapM (Info.tryFromRaw K)
  Set.tryFromParts validators proposer value.totalVotingPower

/-- `From<Set> for RawValidatorSet`. -/
def Set.toRaw (value : Set) : RawValidatorSet where
  validators := value.validators.map Info.toRaw
  proposer := value.proposer.map Info.toRaw
  totalVotingPower := value.totalVotingPower.toI64

/-- A canonical set of validators that raw validators keep decodes from its encoding. -/
theorem Set.tryFromRaw_toRaw {K : KeyCrypto} {s : Set} (hs : s.Canonical)
    (hvals : ∀ v ∈ s.validators, v.Encodable K) (hproposer : ∀ v ∈ s.proposer, v.Encodable K) :
    Set.tryFromRaw K s.toRaw = .ok s := by
  simp only [tryFromRaw, toRaw,
    Rust.mapM_map_of_forall fun v hv => Info.tryFromRaw_toRaw (hvals v hv),
    Rust.optionMapM_map_of_forall fun v hv => Info.tryFromRaw_toRaw (hproposer v hv), Rust.ok_bind]
  exact Set.tryFromParts_of_canonical hs

end Validator

end Tendermint
