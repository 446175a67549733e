import Mathlib
import Tendermint.Lib.Rfc3339

/-!
# Scalar types

The newtypes of `tendermint` over machine integers and the time types
(`block/height.rs`, `block/round.rs`, `vote/power.rs`, `time.rs`), and the error type
`tendermint::Error` (`error.rs`) restricted to the variants the modelled functions raise.

`Height` and `Power` are `u64` values that every constructor checks against `i64::MAX`, and `Round` is
a `u32` checked against `i32::MAX`; each is a structure whose bound is a field, so an out-of-range
value cannot be built, and the `TryFrom` conversions of the source are the only checked entry
points. `Time` wraps a `PrimitiveDateTime` restricted to the years `1..=9999`; it is modelled by its
distance to the Unix epoch in nanoseconds, with the range as a field. `core::time::Duration` is a
`u64` of seconds and a `u32` of nanoseconds below `10^9`, i.e. a number of nanoseconds below
`2^64 · 10^9`.
-/

namespace Tendermint

/-- Byte strings (`Vec<u8>`, `&[u8]`). -/
abbrev Bytes := List UInt8

/-- `tendermint::Error`, restricted to the variants raised by the modelled functions. -/
inductive Error
  | length
  | parse (what : String)
  | dateOutOfRange
  | durationOutOfRange
  | negativeHeight
  | negativeRound
  | negativePower
  | integerOverflow
  | invalidHashSize
  | invalidAccountIdLength
  | timestampNanosOutOfRange
  | timestampConversion
  | invalidPartSetHeader (detail : String)
  | missingTimestamp
  | missingVersion
  | invalidFirstHeader
  | invalidSignedHeader
  | trustThresholdTooLarge
  | undefinedTrustThreshold
  | trustThresholdTooSmall
  | totalVotingPowerMismatch
  | totalVotingPowerOverflow
  | invalidTimestamp (reason : String)
  | invalidSignature (reason : String)
  | invalidValidatorAddress
  | blockIdFlag
  | signatureInvalid (detail : String)
  | invalidMessageType
  | negativePolRound
  | negativeValidatorIndex
  | invalidBlock (detail : String)
  | missingPublicKey
  | invalidKey (detail : String)
  | missingEvidence
  | invalidEvidence
  | timeParse (e : Rfc3339.ParseError)
deriving DecidableEq, Repr

/-- `i64::MAX + 1`: heights and powers are `u64` values below it. -/
def i64Bound : Nat := 2 ^ 63

/-- `block::Height`: a `u64` of at most `i64::MAX`. -/
structure Height where
  value : Nat
  lt : value < i64Bound
deriving DecidableEq, Repr

namespace Height

instance : LinearOrder Height :=
  LinearOrder.lift' Height.value (fun a b h => by cases a; cases b; cases h; rfl)

@[simp] theorem le_iff {a b : Height} : a ≤ b ↔ a.value ≤ b.value := Iff.rfl
@[simp] theorem lt_iff {a b : Height} : a < b ↔ a.value < b.value := Iff.rfl

theorem ext_iff' {a b : Height} : a = b ↔ a.value = b.value :=
  ⟨fun h => h ▸ rfl, fun h => by cases a; cases b; cases h; rfl⟩

/-- `Height::try_from(u64)` (also the `unwrap`ped conversions of the source). -/
def ofNat? (n : Nat) : Option Height :=
  if h : n < i64Bound then some ⟨n, h⟩ else none

/-- `TryFrom<i64> for Height`. -/
def tryFromI64 (n : Int) : Except Error Height :=
  if 0 ≤ n then
    if h' : n.toNat < i64Bound then .ok ⟨n.toNat, h'⟩ else .error .negativeHeight
  else .error .negativeHeight

/-- `From<Height> for i64`. -/
def toI64 (h : Height) : Int := h.value

/-- `Height::increment`, which panics past `i64::MAX`. -/
def increment (h : Height) : Option Height := ofNat? (h.value + 1)

/-- `Height::default()`. -/
def default : Height := ⟨1, by decide⟩

/-- `From<u8> for Height`. -/
def fromU8 (value : UInt8) : Height := ⟨value.toNat, Nat.lt_trans value.toNat_lt (by decide)⟩

theorem ofNat?_eq_some {n : Nat} {h : Height} : ofNat? n = some h ↔ h.value = n := by
  unfold ofNat?
  split
  · next hn =>
    refine ⟨fun e => ?_, fun e => ?_⟩
    · cases e; rfl
    · rw [Option.some_inj, ext_iff']; exact e.symm
  · next hn =>
    simp only [reduceCtorEq, false_iff]
    intro e
    exact hn (e ▸ h.lt)

theorem increment_eq_some {h h' : Height} : h.increment = some h' ↔ h'.value = h.value + 1 :=
  ofNat?_eq_some

theorem tryFromI64_toI64 (h : Height) : tryFromI64 h.toI64 = .ok h := by
  simp [tryFromI64, toI64, h.lt]

end Height

/-- `block::Round`: a `u32` of at most `i32::MAX`. -/
structure Round where
  value : Nat
  lt : value < 2 ^ 31
deriving DecidableEq, Repr

/-- `From<u8> for Round`. -/
def Round.fromU8 (value : UInt8) : Round := ⟨value.toNat, Nat.lt_trans value.toNat_lt (by decide)⟩

/-- `i32::try_from(i64)`, its error mapped to `Error::integer_overflow`. -/
def tryIntoI32 (value : Int) : Except Error Int :=
  if -2 ^ 31 ≤ value ∧ value < 2 ^ 31 then .ok value else .error .integerOverflow

/-- `TryFrom<i32> for Round`: the conversion to `u32` fails on a negative value, with
`Error::negative_round`; an `i32` is below `2 ^ 31`. -/
def Round.tryFromI32 (value : Int) : Except Error Round :=
  if h : 0 ≤ value ∧ value < 2 ^ 31 then .ok ⟨value.toNat, by omega⟩ else .error .negativeRound

@[simp] theorem tryIntoI32_round (r : Round) : tryIntoI32 r.value = .ok r.value := by
  have hlt := r.lt
  unfold tryIntoI32
  rw [if_pos (by omega)]

@[simp] theorem Round.tryFromI32_value (r : Round) : Round.tryFromI32 r.value = .ok r := by
  have hlt := r.lt
  unfold Round.tryFromI32
  rw [dif_pos (by omega)]
  simp

/-- `vote::Power`: a `u64` of at most `i64::MAX`. -/
structure Power where
  value : Nat
  lt : value < i64Bound
deriving DecidableEq, Repr

namespace Power

/-- `Power::value` as the `u64` it is. -/
def toU64 (p : Power) : UInt64 :=
  UInt64.ofNatLT p.value (Nat.lt_trans p.lt (by decide))

@[simp] theorem toNat_toU64 (p : Power) : p.toU64.toNat = p.value := UInt64.toNat_ofNatLT

/-- `From<u8> for Power`. -/
def fromU8 (value : UInt8) : Power := ⟨value.toNat, Nat.lt_trans value.toNat_lt (by decide)⟩

/-- `TryFrom<i64> for Power`. -/
def tryFromI64 (n : Int) : Except Error Power :=
  if 0 ≤ n then
    if h' : n.toNat < i64Bound then .ok ⟨n.toNat, h'⟩ else .error .negativePower
  else .error .negativePower

theorem ext_iff' {a b : Power} : a = b ↔ a.value = b.value :=
  ⟨fun h => h ▸ rfl, fun h => by cases a; cases b; cases h; rfl⟩

/-- The conversion accepts exactly the integers that are powers, and keeps their value. -/
theorem tryFromI64_eq_ok {n : Int} {p : Power} : tryFromI64 n = .ok p ↔ n = p.value := by
  unfold tryFromI64
  split
  · next hn =>
    split
    · next hlt =>
      rw [Except.ok.injEq, ext_iff']
      show n.toNat = p.value ↔ n = p.value
      omega
    · next hge =>
      simp only [reduceCtorEq, false_iff]
      rintro rfl
      exact hge (by simpa using p.lt)
  · next hn =>
    simp only [reduceCtorEq, false_iff]
    omega

/-- `From<Power> for i64`. -/
def toI64 (p : Power) : Int := p.value

theorem tryFromI64_toI64 (p : Power) : tryFromI64 p.toI64 = .ok p :=
  tryFromI64_eq_ok.mpr rfl

end Power

/-- `core::time::Duration`, as a number of nanoseconds. -/
structure Duration where
  nanos : Nat
  lt : nanos < 2 ^ 64 * 10 ^ 9
deriving DecidableEq, Repr

/-- Nanoseconds from the Unix epoch to `0001-01-01T00:00:00Z`. -/
def Time.minNanos : Int := -62135596800 * 10 ^ 9

/-- Nanoseconds from the Unix epoch to `9999-12-31T23:59:59.999999999Z`. -/
def Time.maxNanos : Int := 253402300799 * 10 ^ 9 + 999999999

/-- Nanoseconds from the Unix epoch to `-9999-01-01T00:00:00`, the least `PrimitiveDateTime`. -/
def Time.primitiveMinNanos : Int := -377705203200 * 10 ^ 9

/-- `tendermint::Time`: an instant of the years `1..=9999`, in nanoseconds from the Unix epoch. -/
structure Time where
  nanos : Int
  ge : Time.minNanos ≤ nanos
  le : nanos ≤ Time.maxNanos
deriving DecidableEq, Repr

namespace Time

instance : LinearOrder Time :=
  LinearOrder.lift' Time.nanos (fun a b h => by cases a; cases b; cases h; rfl)

@[simp] theorem le_iff {a b : Time} : a ≤ b ↔ a.nanos ≤ b.nanos := Iff.rfl
@[simp] theorem lt_iff {a b : Time} : a < b ↔ a.nanos < b.nanos := Iff.rfl

/-- `Time::unix_epoch`. -/
def unixEpoch : Time := ⟨0, by decide, by decide⟩

/-- `Add<Duration> for Time`: the conversion to `time::Duration` and `checked_add` fail with
`DurationOutOfRange` past the last instant of the year 9999. -/
def add (t : Time) (d : Duration) : Except Error Time :=
  if h : t.nanos + d.nanos ≤ maxNanos then
    .ok ⟨t.nanos + d.nanos, by have := t.ge; omega, h⟩
  else .error .durationOutOfRange

/-- `Sub<Duration> for Time`: `checked_sub` fails with `DurationOutOfRange` below the least
`PrimitiveDateTime`, and `from_utc` with `DateOutOfRange` before the year 1. -/
def sub (t : Time) (d : Duration) : Except Error Time :=
  if h : minNanos ≤ t.nanos - d.nanos then
    .ok ⟨t.nanos - d.nanos, h, by have := t.le; omega⟩
  else if primitiveMinNanos ≤ t.nanos - d.nanos then .error .dateOutOfRange
  else .error .durationOutOfRange

theorem add_eq_ok {t t' : Time} {d : Duration} :
    t.add d = .ok t' ↔ t.nanos + d.nanos ≤ maxNanos ∧ t'.nanos = t.nanos + d.nanos := by
  unfold add
  split
  · next h =>
    refine ⟨fun e => ?_, fun ⟨_, e⟩ => ?_⟩
    · cases e; exact ⟨h, rfl⟩
    · cases t'; cases e; rfl
  · next h =>
    simp only [reduceCtorEq, false_iff, not_and]
    intro h'
    exact absurd h' h

theorem add_eq_error {t : Time} {d : Duration} {e : Error} :
    t.add d = .error e → maxNanos < t.nanos + d.nanos := by
  unfold add
  split
  · intro h; cases h
  · next h => intro _; omega

end Time

end Tendermint
