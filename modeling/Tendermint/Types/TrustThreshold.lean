import Tendermint.Lib.Rust
import Tendermint.Types.Scalars

/-!
# Trust thresholds

`TrustThresholdFraction` (`trust_threshold.rs`): the fraction of a trusted validator set's voting
power that must have signed for a commit to be accepted. Its fields are private, and `new` (behind
`TryFrom<RawTrustThresholdFraction>` and deserialization as well) is its only constructor besides the
constants, so the range `1/3 ≤ numerator/denominator ≤ 1` it checks is carried by the structure.

Both `new` and `is_enough_power` multiply `u64` values with the plain operator, so in the model both
may panic (see `Tendermint.Lib.Rust`); the lemmas below say exactly when.
-/

namespace Tendermint

/-- `TrustThresholdFraction`, with the range that `new` checks as fields. -/
structure TrustThresholdFraction where
  numerator : UInt64
  denominator : UInt64
  numerator_le : numerator.toNat ≤ denominator.toNat
  denominator_pos : 0 < denominator.toNat
  denominator_le : denominator.toNat ≤ 3 * numerator.toNat
deriving DecidableEq

/-- `RawTrustThresholdFraction`, after its two decimal strings have been parsed. -/
structure RawTrustThresholdFraction where
  numerator : UInt64
  denominator : UInt64

namespace TrustThresholdFraction

/-- `TrustThresholdFraction::ONE_THIRD`, also the `Default`. -/
def oneThird : TrustThresholdFraction := ⟨1, 3, by decide, by decide, by decide⟩

/-- `TrustThresholdFraction::TWO_THIRDS`. -/
def twoThirds : TrustThresholdFraction := ⟨2, 3, by decide, by decide, by decide⟩

instance : Inhabited TrustThresholdFraction := ⟨oneThird⟩

/-- `TrustThresholdFraction::new`: the three checks in the source's order, the last one through
the multiplication `3 * numerator`. -/
def new (numerator denominator : UInt64) : ExceptT Error Option TrustThresholdFraction :=
  if h₁ : numerator > denominator then throw .trustThresholdTooLarge
  else if h₂ : denominator = 0 then throw .undefinedTrustThreshold
  else
    match h : Rust.checkedMul 3 numerator with
    | none => ExceptT.lift none
    | some m =>
      if h₃ : m < denominator then throw .trustThresholdTooSmall
      else
        have hm := (Rust.checkedMul_eq_some.mp h).2
        pure ⟨numerator, denominator,
          by simp only [gt_iff_lt, UInt64.lt_iff_toNat_lt] at h₁; omega,
          by rw [← UInt64.toNat_inj, UInt64.toNat_zero] at h₂; omega,
          by rw [UInt64.lt_iff_toNat_lt] at h₃; simp only [UInt64.reduceToNat] at hm; omega⟩

/-- `TryFrom<RawTrustThresholdFraction>`. -/
def tryFromRaw (value : RawTrustThresholdFraction) : ExceptT Error Option TrustThresholdFraction :=
  new value.numerator value.denominator

/-- `From<TrustThresholdFraction> for RawTrustThresholdFraction`. -/
def toRaw (f : TrustThresholdFraction) : RawTrustThresholdFraction :=
  ⟨f.numerator, f.denominator⟩

/-- `TrustThreshold::is_enough_power`: `signed * denominator > total * numerator` on `u64`. -/
def isEnoughPower (t : TrustThresholdFraction) (signedVotingPower totalVotingPower : UInt64) :
    Option Bool := do
  let lhs ← Rust.checkedMul signedVotingPower t.denominator
  let rhs ← Rust.checkedMul totalVotingPower t.numerator
  pure (decide (lhs > rhs))

private theorem three_toNat : (3 : UInt64).toNat = 3 := rfl

theorem new_run_eq_ok {n d : UInt64} {t : TrustThresholdFraction} :
    (new n d).run = some (.ok t) ↔
      (n.toNat ≤ d.toNat ∧ 0 < d.toNat ∧ d.toNat ≤ 3 * n.toNat ∧ 3 * n.toNat < 2 ^ 64) ∧
        t.numerator = n ∧ t.denominator = d := by
  unfold new
  split
  · next h₁ =>
    simp only [gt_iff_lt, UInt64.lt_iff_toNat_lt] at h₁
    simp
    omega
  · next h₁ =>
    simp only [gt_iff_lt, UInt64.lt_iff_toNat_lt] at h₁
    split
    · next h₂ =>
      rw [← UInt64.toNat_inj, UInt64.toNat_zero] at h₂
      simp
      omega
    · next h₂ =>
      rw [← UInt64.toNat_inj, UInt64.toNat_zero] at h₂
      split
      · next h =>
        rw [Rust.checkedMul_eq_none, three_toNat] at h
        simp
        omega
      · next m h =>
        obtain ⟨hlt, hm⟩ := Rust.checkedMul_eq_some.mp h
        rw [three_toNat] at hlt hm
        split
        · next h₃ =>
          rw [UInt64.lt_iff_toNat_lt] at h₃
          simp
          omega
        · next h₃ =>
          rw [UInt64.lt_iff_toNat_lt] at h₃
          simp only [ExceptT.run_pure, Option.pure_def, Option.some.injEq, Except.ok.injEq]
          constructor
          · rintro rfl
            exact ⟨by omega, rfl, rfl⟩
          · rintro ⟨-, hn, hd⟩
            cases t
            subst hn hd
            rfl

/-- `new` panics exactly when its first two checks pass and `3 * numerator` overflows. -/
theorem new_run_eq_none {n d : UInt64} :
    (new n d).run = none ↔ n.toNat ≤ d.toNat ∧ 0 < d.toNat ∧ 2 ^ 64 ≤ 3 * n.toNat := by
  unfold new
  split
  · next h₁ =>
    simp only [gt_iff_lt, UInt64.lt_iff_toNat_lt] at h₁
    simp
    omega
  · next h₁ =>
    simp only [gt_iff_lt, UInt64.lt_iff_toNat_lt] at h₁
    split
    · next h₂ =>
      rw [← UInt64.toNat_inj, UInt64.toNat_zero] at h₂
      simp
      omega
    · next h₂ =>
      rw [← UInt64.toNat_inj, UInt64.toNat_zero] at h₂
      split
      · next h =>
        rw [Rust.checkedMul_eq_none, three_toNat] at h
        simp
        omega
      · next m h =>
        obtain ⟨hlt, -⟩ := Rust.checkedMul_eq_some.mp h
        rw [three_toNat] at hlt
        split <;> simp <;> omega

/-- `is_enough_power` returns the comparison of the exact products whenever neither overflows. -/
theorem isEnoughPower_eq_some {t : TrustThresholdFraction} {s tot : UInt64} {b : Bool} :
    t.isEnoughPower s tot = some b ↔
      s.toNat * t.denominator.toNat < 2 ^ 64 ∧ tot.toNat * t.numerator.toNat < 2 ^ 64 ∧
        b = decide (tot.toNat * t.numerator.toNat < s.toNat * t.denominator.toNat) := by
  simp only [isEnoughPower, Option.bind_eq_bind, Option.bind_eq_some_iff, Option.pure_def,
    Option.some.injEq, Rust.checkedMul_eq_some]
  constructor
  · rintro ⟨l, ⟨hl, hl'⟩, r, ⟨hr, hr'⟩, rfl⟩
    simp only [gt_iff_lt, UInt64.lt_iff_toNat_lt, hl', hr']
    exact ⟨hl, hr, trivial⟩
  · rintro ⟨hl, hr, rfl⟩
    refine ⟨UInt64.ofNatLT _ hl, ⟨hl, UInt64.toNat_ofNatLT⟩, UInt64.ofNatLT _ hr,
      ⟨hr, UInt64.toNat_ofNatLT⟩, ?_⟩
    simp only [gt_iff_lt, UInt64.lt_iff_toNat_lt, UInt64.toNat_ofNatLT]

/-- Both multiplications overflow inside the accepted range: `new` panics on the fraction
`6148914691236517206/6148914691236517206` (equal to one), and the accepted fraction
`4294967295/4294967296` makes `is_enough_power` panic on `2^40` signed out of `2^40` total, a total
below `Set::MAX_TOTAL_VOTING_POWER`. -/
theorem trust_threshold_products_overflow :
    (new 6148914691236517206 6148914691236517206).run = none ∧
      ∃ t, (new 4294967295 4294967296).run = some (.ok t) ∧
        t.isEnoughPower 1099511627776 1099511627776 = none := by
  refine ⟨new_run_eq_none.mpr (by decide), ⟨4294967295, 4294967296, by decide, by decide, by decide⟩,
    new_run_eq_ok.mpr ⟨by decide, rfl, rfl⟩, by decide⟩

end TrustThresholdFraction

end Tendermint
