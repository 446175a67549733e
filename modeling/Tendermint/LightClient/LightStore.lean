import Tendermint.LightClient.Store

/-!
# The `LightStore` trait

`store.rs`: the required methods of the trait that the light client calls, as a class, and its
provided methods over any implementation. The memory store implements it with the methods of
`MemoryStore`, and its own provided methods are the trait's (`MemoryStore.getNonFailed_eq` and the
three lemmas after it), so a result stated over the trait speaks of the memory store the rest of the
development models.
-/

namespace Tendermint

namespace LightClient

open Verifier

/-- The `LightStore` trait: the required methods that the light client and the provided methods
call. -/
class LightStore (σ : Type) where
  get : σ → Height → Status → Option LightBlock
  update : σ → LightBlock → Status → σ
  insert : σ → LightBlock → Status → σ
  highestBefore : σ → Height → Status → Option LightBlock
  lowest : σ → Status → Option LightBlock

namespace LightStore

variable {σ : Type} [LightStore σ]

/-- `LightStore::get_non_failed`. -/
def getNonFailed (self : σ) (height : Height) : Option (LightBlock × Status) :=
  (((get self height .trusted).map (·, .trusted)).or
    ((get self height .verified).map (·, .verified))).or
    ((get self height .unverified).map (·, .unverified))

/-- `LightStore::highest_trusted_or_verified_before`. -/
def highestTrustedOrVerifiedBefore (self : σ) (height : Height) : Option LightBlock :=
  StdExt.select (highestBefore self height .trusted) (highestBefore self height .verified)
    fun t v => StdExt.maxByKey t v LightBlock.height

/-- `LightStore::lowest_trusted_or_verified`. -/
def lowestTrustedOrVerified (self : σ) : Option LightBlock :=
  StdExt.select (lowest self .trusted) (lowest self .verified) fun t v =>
    StdExt.minByKey t v LightBlock.height

/-- `LightStore::get_trusted_or_verified`. -/
def getTrustedOrVerified (self : σ) (height : Height) : Option LightBlock :=
  (get self height .trusted).or (get self height .verified)

/-- No block that has not failed is at a height exactly when none is there under any status but
`Failed`. -/
theorem getNonFailed_eq_none {self : σ} {height : Height} :
    getNonFailed self height = none ↔ ∀ status, status ≠ .failed → get self height status = none := by
  constructor
  · intro h status hs
    simp only [getNonFailed, Option.or_eq_none_iff, Option.map_eq_none_iff] at h
    obtain ⟨⟨hT, hV⟩, hU⟩ := h
    cases status with
    | failed => exact absurd rfl hs
    | unverified => exact hU
    | verified => exact hV
    | trusted => exact hT
  · intro h
    simp [getNonFailed, h .trusted (by decide), h .verified (by decide),
      h .unverified (by decide)]

end LightStore

instance : LightStore MemoryStore where
  get := MemoryStore.get
  update := MemoryStore.update
  insert := MemoryStore.insert
  highestBefore := MemoryStore.highestBefore
  lowest := MemoryStore.lowest

namespace MemoryStore

variable {self : MemoryStore} {height : Height} {b : LightBlock} {s : Status}

@[simp] theorem lightStore_get : LightStore.get self height s = self.get height s := rfl

@[simp] theorem lightStore_update : LightStore.update self b s = self.update b s := rfl

@[simp] theorem lightStore_insert : LightStore.insert self b s = self.insert b s := rfl

@[simp] theorem lightStore_highestBefore :
    LightStore.highestBefore self height s = self.highestBefore height s := rfl

@[simp] theorem lightStore_lowest : LightStore.lowest self s = self.lowest s := rfl

theorem getNonFailed_eq : LightStore.getNonFailed self height = self.getNonFailed height := rfl

theorem highestTrustedOrVerifiedBefore_eq :
    LightStore.highestTrustedOrVerifiedBefore self height =
      self.highestTrustedOrVerifiedBefore height := rfl

theorem lowestTrustedOrVerified_eq :
    LightStore.lowestTrustedOrVerified self = self.lowestTrustedOrVerified := rfl

theorem getTrustedOrVerified_eq :
    LightStore.getTrustedOrVerified self height = self.getTrustedOrVerified height := rfl

end MemoryStore

end LightClient

end Tendermint
