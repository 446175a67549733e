import Tendermint.Lib.Decimal
import Tendermint.Lib.Rust
import Tendermint.Types.Scalars

/-!
# `google.protobuf.Duration`

`proto/src/google/protobuf/duration.rs`: a signed span of time as seconds (an `i64`) and
nanoseconds (an `i32`), its normal form (`normalize`), its conversions to and from
`core::time::Duration`, and its JSON string (the `Serialize` impl and the `visit_str` of the
`Deserialize` impl).

A duration stands for `seconds * 10 ^ 9 + nanos` nanoseconds (`Duration.value`). A normal duration
has its nanoseconds within a second and of the sign of its seconds (`Duration.Normal`); two normal
durations of one value are equal (`Normal.eq_of_value_eq`).

* `normalize` never panics on a duration whose fields fit their types, and returns the normal
  duration of its value, clamped to the normal range when the seconds overflow;
* the conversion to `core::time::Duration` returns the clamped value when it is not negative, and
  its magnitude as a `NegativeDuration` error otherwise, except that negating `i64::MIN` seconds
  panics; from `core::time::Duration` and back is the identity below `2 ^ 63` seconds;
* a normal duration's JSON string reads back as the duration, except at `i64::MIN` seconds, whose
  digits do not fit an `i64` once the sign is stripped.
-/

namespace Tendermint

/-- `core::time::Duration::new(secs, nanos)`: the whole seconds of the nanoseconds are carried
into the seconds, which panics past `u64::MAX`. -/
def Duration.new (secs nanos : Nat) : Option Duration :=
  if h : secs + nanos / 10 ^ 9 < 2 ^ 64 then some ⟨secs * 10 ^ 9 + nanos, by omega⟩ else none

/-- `Duration::new` of seconds and nanoseconds whose carry fits: their sum in nanoseconds. -/
theorem Duration.new_eq_some (secs nanos : Nat) (h : secs + nanos / 10 ^ 9 < 2 ^ 64) :
    ∃ c, Duration.new secs nanos = some c ∧ c.nanos = secs * 10 ^ 9 + nanos :=
  ⟨_, dif_pos h, rfl⟩

namespace Protobuf

/-- `NANOS_PER_SECOND`. -/
def nanosPerSecond : Int := 1000000000

/-- `NANOS_MAX`. -/
def nanosMax : Int := nanosPerSecond - 1

/-- `Duration`. -/
structure Duration where
  seconds : Int
  nanos : Int
deriving DecidableEq, Repr

/-- `DurationError`. -/
inductive DurationError
  | negativeDuration (magnitude : Tendermint.Duration)
  | outOfRange
deriving DecidableEq, Repr

namespace Duration

/-- The values the fields hold: an `i64` and an `i32`. -/
structure InRange (d : Duration) : Prop where
  seconds_ge : -2 ^ 63 ≤ d.seconds
  seconds_lt : d.seconds < 2 ^ 63
  nanos_ge : -2 ^ 31 ≤ d.nanos
  nanos_lt : d.nanos < 2 ^ 31

/-! ## Normal form -/

/-- The first part of `Duration::normalize`: bring the nanoseconds within a second, carrying the
whole seconds; when the seconds overflow, the least or the greatest normal value. -/
def normalizeNanos (self : Duration) : Duration :=
  if self.nanos ≤ -nanosPerSecond ∨ self.nanos ≥ nanosPerSecond then
    match Rust.checkedAddI64 self.seconds (self.nanos.tdiv nanosPerSecond) with
    | some seconds => ⟨seconds, self.nanos.tmod nanosPerSecond⟩
    | none =>
      -- negative overflow, then positive overflow
      if self.nanos < 0 then ⟨-2 ^ 63, -nanosMax⟩ else ⟨2 ^ 63 - 1, nanosMax⟩
  else self

/-- The second part of `Duration::normalize`: give the nanoseconds the sign of the seconds. Each
overflow branch has a `debug_assert_eq!`, a panic when it fails. -/
def normalizeSign (self : Duration) : Option Duration :=
  if self.seconds < 0 ∧ self.nanos > 0 then
    match Rust.checkedAddI64 self.seconds 1 with
    | some seconds => some ⟨seconds, self.nanos - nanosPerSecond⟩
    | none => do
      Rust.assert (self.seconds == 2 ^ 63 - 1)
      pure ⟨self.seconds, nanosMax⟩
  else if self.seconds > 0 ∧ self.nanos < 0 then
    match Rust.checkedSubI64 self.seconds 1 with
    | some seconds => some ⟨seconds, self.nanos + nanosPerSecond⟩
    | none => do
      Rust.assert (self.seconds == -2 ^ 63)
      pure ⟨self.seconds, -nanosMax⟩
  else some self

/-- `Duration::normalize`. -/
def normalize (self : Duration) : Option Duration :=
  normalizeSign (normalizeNanos self)

/-- The span, in nanoseconds. -/
def value (d : Duration) : Int := d.seconds * nanosPerSecond + d.nanos

/-- The value of the least normal duration, `i64::MIN` seconds and `-NANOS_MAX` nanoseconds. -/
def minValue : Int := -2 ^ 63 * nanosPerSecond - nanosMax

/-- The value of the greatest normal duration, `i64::MAX` seconds and `NANOS_MAX` nanoseconds. -/
def maxValue : Int := (2 ^ 63 - 1) * nanosPerSecond + nanosMax

/-- The value of a duration clamped to the values of normal durations: what `normalize` keeps. -/
def clampedValue (d : Duration) : Int := max minValue (min maxValue d.value)

/-- Seconds that fit an `i64` and nanoseconds within a second: what the first part of
`normalize` leaves. -/
structure WithinSecond (d : Duration) : Prop where
  seconds_ge : -2 ^ 63 ≤ d.seconds
  seconds_lt : d.seconds < 2 ^ 63
  nanos_gt : -nanosPerSecond < d.nanos
  nanos_lt : d.nanos < nanosPerSecond

/-- A normal duration: within a second, with nanoseconds of the sign of the seconds. -/
structure Normal (d : Duration) : Prop extends d.WithinSecond where
  sign_neg : d.seconds < 0 → d.nanos ≤ 0
  sign_pos : 0 < d.seconds → 0 ≤ d.nanos

/-- Two normal durations of one value are one duration: the value fixes the whole seconds, and
the sign of the rest. -/
theorem Normal.eq_of_value_eq {d₁ d₂ : Duration} (h₁ : d₁.Normal) (h₂ : d₂.Normal)
    (hv : d₁.value = d₂.value) : d₁ = d₂ := by
  obtain ⟨s₁, n₁⟩ := d₁
  obtain ⟨s₂, n₂⟩ := d₂
  obtain ⟨⟨-, -, hn₁, hn₁'⟩, hneg₁, hpos₁⟩ := h₁
  obtain ⟨⟨-, -, hn₂, hn₂'⟩, hneg₂, hpos₂⟩ := h₂
  simp only [value, nanosPerSecond] at hv hn₁ hn₁' hn₂ hn₂' hneg₁ hpos₁ hneg₂ hpos₂
  have hs : s₁ = s₂ := by omega
  subst hs
  have hn : n₁ = n₂ := by omega
  rw [hn]

/-- Truncating division by a second: the quotient and the remainder make up the nanoseconds, and
the remainder is within a second and of their sign. -/
theorem tdiv_tmod_nanosPerSecond (n : Int) :
    n = nanosPerSecond * n.tdiv nanosPerSecond + n.tmod nanosPerSecond ∧
      (0 ≤ n → 0 ≤ n.tmod nanosPerSecond) ∧ (n ≤ 0 → n.tmod nanosPerSecond ≤ 0) ∧
      -nanosPerSecond < n.tmod nanosPerSecond ∧ n.tmod nanosPerSecond < nanosPerSecond := by
  have hpos : (0 : Int) < nanosPerSecond := by decide
  refine ⟨by rw [Int.tmod_def]; omega, Int.tmod_nonneg _, fun hn => ?_,
    Int.lt_tmod_of_pos n hpos, Int.tmod_lt_of_pos n hpos⟩
  -- a remainder of a non-positive number is the negated remainder of its negation
  have := Int.tmod_nonneg nanosPerSecond (Int.neg_nonneg.mpr hn)
  rw [Int.neg_tmod] at this
  omega

variable {d : Duration}

/-- The first part of `normalize` brings a duration within a second, and gives it its value
clamped to the normal range. -/
theorem normalizeNanos_spec (h : d.InRange) :
    (normalizeNanos d).WithinSecond ∧ (normalizeNanos d).value = d.clampedValue := by
  obtain ⟨hs, hs', hn, hn'⟩ := h
  obtain ⟨hdiv, hnonneg, hnonpos, hr, hr'⟩ := tdiv_tmod_nanosPerSecond d.nanos
  unfold normalizeNanos
  by_cases hcarry : d.nanos ≤ -nanosPerSecond ∨ d.nanos ≥ nanosPerSecond
  · -- the nanoseconds are carried into the seconds
    rw [if_pos hcarry]
    rcases hadd : Rust.checkedAddI64 d.seconds (d.nanos.tdiv nanosPerSecond) with _ | seconds <;>
      dsimp only
    · have hover := Rust.checkedAddI64_eq_none.mp hadd
      by_cases hneg : d.nanos < 0
      · -- the seconds overflow downwards
        rw [if_pos hneg]
        refine ⟨⟨by decide, by decide, by decide, by decide⟩, ?_⟩
        simp only [value, clampedValue, minValue, maxValue, nanosMax, nanosPerSecond] at *
        omega
      · -- the seconds overflow upwards
        rw [if_neg hneg]
        refine ⟨⟨by decide, by decide, by decide, by decide⟩, ?_⟩
        simp only [value, clampedValue, minValue, maxValue, nanosMax, nanosPerSecond] at *
        omega
    · obtain ⟨⟨hlo, hhi⟩, rfl⟩ := Rust.checkedAddI64_eq_some.mp hadd
      refine ⟨⟨hlo, hhi, hr, hr'⟩, ?_⟩
      simp only [value, clampedValue, minValue, maxValue, nanosMax, nanosPerSecond] at *
      omega
  · -- the nanoseconds are already within a second
    rw [if_neg hcarry]
    refine ⟨⟨hs, hs', by omega, by omega⟩, ?_⟩
    simp only [value, clampedValue, minValue, maxValue, nanosMax, nanosPerSecond] at *
    omega

/-- The second part of `normalize` never panics within a second, and makes the duration normal,
keeping its value: a second moves between the fields when their signs differ. -/
theorem normalizeSign_spec (h : d.WithinSecond) :
    ∃ d', normalizeSign d = some d' ∧ d'.Normal ∧ d'.value = d.value := by
  obtain ⟨hs, hs', hn, hn'⟩ := h
  unfold normalizeSign
  split_ifs with hnegpos hposneg
  · -- negative seconds, positive nanoseconds: a second moves into the nanoseconds
    have hadd : Rust.checkedAddI64 d.seconds 1 = some (d.seconds + 1) :=
      Rust.checkedAddI64_eq_some.mpr ⟨⟨by omega, by omega⟩, rfl⟩
    rw [hadd]
    refine ⟨_, rfl, ⟨⟨?_, ?_, ?_, ?_⟩, ?_, ?_⟩, ?_⟩ <;>
      simp only [value, nanosPerSecond] at * <;> omega
  · -- positive seconds, negative nanoseconds: a second moves out of them
    have hsub : Rust.checkedSubI64 d.seconds 1 = some (d.seconds - 1) :=
      Rust.checkedSubI64_eq_some.mpr ⟨⟨by omega, by omega⟩, rfl⟩
    rw [hsub]
    refine ⟨_, rfl, ⟨⟨?_, ?_, ?_, ?_⟩, ?_, ?_⟩, ?_⟩ <;>
      simp only [value, nanosPerSecond] at * <;> omega
  · exact ⟨d, rfl, ⟨⟨hs, hs', hn, hn'⟩, by omega, by omega⟩, rfl⟩

/-- `normalize` never panics on a duration whose fields fit their types. -/
theorem normalize_spec (h : d.InRange) :
    ∃ d', d.normalize = some d' ∧ d'.Normal ∧ d'.value = d.clampedValue := by
  obtain ⟨hwithin, hvalue⟩ := normalizeNanos_spec h
  obtain ⟨d', hsign, hnormal, hvalue'⟩ := normalizeSign_spec hwithin
  exact ⟨d', hsign, hnormal, hvalue'.trans hvalue⟩

/-- On fields in range, `normalize` never panics and leaves exactly the normal duration of the
clamped value. -/
theorem normalize_returns_the_clamped_normal_duration (h : d.InRange) :
    d.normalize.isSome ∧ ∀ d', d.normalize = some d' ↔ d'.Normal ∧ d'.value = d.clampedValue := by
  obtain ⟨d₀, hnorm, hnormal, hvalue⟩ := normalize_spec h
  refine ⟨by rw [hnorm]; rfl, fun d' => ⟨fun h' => ?_, fun ⟨hnormal', hvalue'⟩ => ?_⟩⟩
  · rw [hnorm, Option.some.injEq] at h'
    exact h' ▸ ⟨hnormal, hvalue⟩
  · -- the normal duration of a value is unique
    rw [hnorm, Normal.eq_of_value_eq hnormal hnormal' (hvalue.trans hvalue'.symm)]

/-- The greatest seconds with two more seconds of nanoseconds saturate at the greatest normal
duration. -/
theorem normalize_saturates_at_the_greatest_duration :
    (normalize ⟨2 ^ 63 - 1, 2 * 10 ^ 9⟩).isSome ∧ ∀ d', normalize ⟨2 ^ 63 - 1, 2 * 10 ^ 9⟩ = some d' ↔
      d'.Normal ∧ d'.value = clampedValue ⟨2 ^ 63 - 1, 2 * 10 ^ 9⟩ :=
  normalize_returns_the_clamped_normal_duration ⟨by decide, by decide, by decide, by decide⟩

/-- A duration within a second has no whole seconds to carry. -/
theorem normalizeNanos_of_withinSecond (h : d.WithinSecond) : normalizeNanos d = d := by
  have := h.nanos_gt
  have := h.nanos_lt
  rw [normalizeNanos, if_neg (by omega)]

/-- A normal duration needs no sign correction. -/
theorem normalizeSign_of_normal (h : d.Normal) : normalizeSign d = some d := by
  have := h.sign_neg
  have := h.sign_pos
  rw [normalizeSign, if_neg (by omega), if_neg (by omega)]

/-- A normal duration is its own normal form. -/
theorem normalize_of_normal (h : d.Normal) : d.normalize = some d := by
  rw [normalize, normalizeNanos_of_withinSecond h.toWithinSecond, normalizeSign_of_normal h]

/-- A duration of a normal value is in range. -/
theorem Normal.inRange (h : d.Normal) : d.InRange :=
  ⟨h.seconds_ge, h.seconds_lt, by have := h.nanos_gt; simp only [nanosPerSecond] at this; omega,
    by have := h.nanos_lt; simp only [nanosPerSecond] at this; omega⟩

/-! ## Conversions with `core::time::Duration` -/

/-- `TryFrom<Duration> for core::time::Duration`: the normal duration, when it is not negative,
and otherwise its magnitude as the error. Negating the seconds overflows at `i64::MIN`; the
nanoseconds, within a second, do not. -/
def tryIntoCore (duration : Duration) : Option (Except DurationError Tendermint.Duration) := do
  let duration ← duration.normalize
  if duration.seconds ≥ 0 ∧ duration.nanos ≥ 0 then
    let d ← Tendermint.Duration.new (Rust.asU64 duration.seconds) (Rust.asU32 duration.nanos)
    pure (.ok d)
  else
    let seconds ← Rust.checkedSubI64 0 duration.seconds
    let d ← Tendermint.Duration.new (Rust.asU64 seconds) (Rust.asU32 (-duration.nanos))
    pure (.error (.negativeDuration d))

/-- `TryFrom<core::time::Duration> for Duration`: `as_secs` must fit an `i64`, and
`subsec_nanos` is below a second. -/
def tryFromCore (duration : Tendermint.Duration) : Option (Except DurationError Duration) :=
  if duration.nanos / 10 ^ 9 < 2 ^ 63 then
    (normalize ⟨duration.nanos / 10 ^ 9, Rust.asI32 (duration.nanos % 10 ^ 9)⟩).map .ok
  else some (.error .outOfRange)

/-- The conversion of a normal duration: its value when that is not negative, and otherwise its
magnitude as the error; at `i64::MIN` seconds the negation of the seconds overflows. -/
theorem tryIntoCore_of_normal (h : d.Normal) :
    (0 ≤ d.value →
      ∃ c : Tendermint.Duration, (c.nanos : Int) = d.value ∧ d.tryIntoCore = some (.ok c)) ∧
    (-2 ^ 63 * nanosPerSecond < d.value → d.value < 0 →
      ∃ c : Tendermint.Duration, (c.nanos : Int) = -d.value ∧
        d.tryIntoCore = some (.error (.negativeDuration c))) ∧
    (d.value ≤ -2 ^ 63 * nanosPerSecond → d.tryIntoCore = none) := by
  have hnorm := normalize_of_normal h
  obtain ⟨⟨hs, hs', hn, hn'⟩, hneg, hpos⟩ := h
  simp only [value, nanosPerSecond] at *
  refine ⟨fun hv => ?_, fun hv hv' => ?_, fun hv => ?_⟩
  · -- a value that is not negative: both fields are not negative
    obtain ⟨c, hc, hcn⟩ := Tendermint.Duration.new_eq_some d.seconds.toNat d.nanos.toNat (by omega)
    refine ⟨c, by rw [hcn]; omega, ?_⟩
    simp only [tryIntoCore, hnorm, Option.bind_eq_bind, Option.bind_some, Option.pure_def]
    rw [if_pos ⟨by omega, by omega⟩, Rust.asU64, Rust.asU32, Rust.castUnsigned_of_lt (by omega) (by omega),
      Rust.castUnsigned_of_lt (by omega) (by omega), hc, Option.bind_some]
  · -- a negative value above `i64::MIN` seconds: its magnitude
    obtain ⟨c, hc, hcn⟩ :=
      Tendermint.Duration.new_eq_some (-d.seconds).toNat (-d.nanos).toNat (by omega)
    have hnegate : Rust.checkedSubI64 0 d.seconds = some (-d.seconds) :=
      Rust.checkedSubI64_eq_some.mpr ⟨⟨by omega, by omega⟩, by omega⟩
    refine ⟨c, by rw [hcn]; omega, ?_⟩
    simp only [tryIntoCore, hnorm, Option.bind_eq_bind, Option.bind_some, Option.pure_def]
    rw [if_neg (by omega), hnegate, Option.bind_some, Rust.asU64, Rust.asU32,
      Rust.castUnsigned_of_lt (by omega) (by omega), Rust.castUnsigned_of_lt (by omega) (by omega),
      hc, Option.bind_some]
  · -- `i64::MIN` seconds: the negation overflows
    have hnegate : Rust.checkedSubI64 0 d.seconds = none :=
      Rust.checkedSubI64_eq_none.mpr (by omega)
    simp only [tryIntoCore, hnorm, Option.bind_eq_bind, Option.bind_some]
    rw [if_neg (by omega), hnegate, Option.bind_none]

/-- `normalize` and then the conversion is the conversion: it normalizes first. -/
theorem tryIntoCore_eq_of_normalize {d' : Duration} (hn : d.normalize = some d') (h : d'.Normal) :
    d.tryIntoCore = d'.tryIntoCore := by
  simp only [tryIntoCore, hn, normalize_of_normal h, Option.bind_eq_bind, Option.bind_some]

/-- The conversion to `core::time::Duration` of a duration in range: the clamped value when it is
not negative, its magnitude as `NegativeDuration` below zero, and a panic at `i64::MIN` seconds. -/
theorem tryIntoCore_converts_the_clamped_value (h : d.InRange) :
    (0 ≤ d.clampedValue →
      ∃ c : Tendermint.Duration, (c.nanos : Int) = d.clampedValue ∧ d.tryIntoCore = some (.ok c)) ∧
    (-2 ^ 63 * nanosPerSecond < d.clampedValue → d.clampedValue < 0 →
      ∃ c : Tendermint.Duration, (c.nanos : Int) = -d.clampedValue ∧
        d.tryIntoCore = some (.error (.negativeDuration c))) ∧
    (d.clampedValue ≤ -2 ^ 63 * nanosPerSecond → d.tryIntoCore = none) := by
  obtain ⟨d', hn, hnormal, hvalue⟩ := normalize_spec h
  rw [tryIntoCore_eq_of_normalize hn hnormal, ← hvalue]
  exact tryIntoCore_of_normal hnormal

/-- The least duration is converted to nothing: its seconds cannot be negated. -/
theorem tryIntoCore_panics_at_the_least_duration :
    (-2 ^ 63 * nanosPerSecond < clampedValue ⟨-2 ^ 63, 0⟩ → clampedValue ⟨-2 ^ 63, 0⟩ < 0 →
      ∃ c : Tendermint.Duration, (c.nanos : Int) = -clampedValue ⟨-2 ^ 63, 0⟩ ∧
        tryIntoCore ⟨-2 ^ 63, 0⟩ = some (.error (.negativeDuration c))) ∧
    (clampedValue ⟨-2 ^ 63, 0⟩ ≤ -2 ^ 63 * nanosPerSecond → tryIntoCore ⟨-2 ^ 63, 0⟩ = none) :=
  (tryIntoCore_converts_the_clamped_value ⟨by decide, by decide, by decide, by decide⟩).2

/-- The conversion from `core::time::Duration`: below `2 ^ 63` seconds, the normal duration of its
value; from there on, `OutOfRange`. -/
theorem tryFromCore_spec (c : Tendermint.Duration) :
    ((c.nanos : Int) < 2 ^ 63 * nanosPerSecond →
      ∃ d, tryFromCore c = some (.ok d) ∧ d.Normal ∧ d.value = c.nanos) ∧
    (2 ^ 63 * nanosPerSecond ≤ (c.nanos : Int) → tryFromCore c = some (.error .outOfRange)) := by
  simp only [nanosPerSecond]
  refine ⟨fun hlt => ?_, fun hge => ?_⟩
  · have hsub : Rust.asI32 (c.nanos % 10 ^ 9) = ((c.nanos % 10 ^ 9 : Nat) : Int) :=
      Rust.asI32_of_lt (by omega)
    -- the seconds and the nanoseconds under a second make a normal duration
    have hnormal : Duration.Normal ⟨(c.nanos : Int) / 10 ^ 9, ((c.nanos % 10 ^ 9 : Nat) : Int)⟩ := by
      refine ⟨⟨?_, ?_, ?_, ?_⟩, ?_, ?_⟩ <;> simp only [nanosPerSecond] <;> omega
    refine ⟨_, ?_, hnormal, by simp only [value, nanosPerSecond]; omega⟩
    rw [tryFromCore, if_pos (by omega), hsub, normalize_of_normal hnormal, Option.map_some]
  · rw [tryFromCore, if_neg (by omega)]

/-- A core duration below `2 ^ 63` seconds converts to a normal protobuf duration and back to
itself. -/
theorem core_duration_round_trips (c : Tendermint.Duration) (h : (c.nanos : Int) < 2 ^ 63 * nanosPerSecond) :
    ∃ d, tryFromCore c = some (.ok d) ∧ d.tryIntoCore = some (.ok c) := by
  obtain ⟨d, hfrom, hnormal, hvalue⟩ := (tryFromCore_spec c).1 h
  obtain ⟨c', hc', hinto⟩ := (tryIntoCore_of_normal hnormal).1 (by omega)
  -- a `core::time::Duration` is its count of nanoseconds
  have hcc : c' = c := by
    obtain ⟨n', _⟩ := c'
    obtain ⟨n, _⟩ := c
    dsimp only at hc' hvalue
    rw [Tendermint.Duration.mk.injEq]
    omega
  exact ⟨d, hfrom, hcc ▸ hinto⟩

/-- A second and a half goes to the protobuf duration and back. -/
theorem core_duration_round_trips_a_second_and_a_half :
    ∃ d, tryFromCore ⟨1500000000, by decide⟩ = some (.ok d) ∧
      d.tryIntoCore = some (.ok ⟨1500000000, by decide⟩) :=
  core_duration_round_trips _ (by decide)

/-! ## The JSON string -/

/-- `split_nanos`: whole milliseconds, microseconds and nanoseconds. -/
def splitNanos (nanos : Nat) : Nat × Nat × Nat :=
  let millis := nanos / 1000000
  let nanos := nanos - millis * 1000000
  let micros := nanos / 1000
  let nanos := nanos - micros * 1000
  (millis, micros, nanos)

/-- The digits `serialize` writes after the point: the milliseconds, then the microseconds and
nanoseconds while any are left, three digits each. -/
def fractionDigits (nanos : Nat) : List Char :=
  match splitNanos nanos with
  | (millis, 0, 0) => Decimal.formatPadded 3 millis
  | (millis, micros, 0) => Decimal.formatPadded 3 millis ++ Decimal.formatPadded 3 micros
  | (millis, micros, nanos) =>
    Decimal.formatPadded 3 millis ++ Decimal.formatPadded 3 micros ++ Decimal.formatPadded 3 nanos

/-- `Serialize for Duration`: the string, or the error of a duration whose fields have opposite
signs. The seconds are written by `i64::to_string`, which is `{:0}`. -/
def serialize (self : Duration) : Except String String :=
  if self.seconds ≠ 0 ∧ self.nanos ≠ 0 ∧ decide (self.nanos < 0) ≠ decide (self.seconds < 0) then
    .error "Duration has inconsistent signs"
  else
    let s : List Char :=
      if self.seconds = 0 then (if self.nanos < 0 then ['-', '0'] else ['0'])
      else Decimal.formatPaddedInt 0 self.seconds
    let s := if self.nanos ≠ 0 then s ++ '.' :: fractionDigits self.nanos.natAbs else s
    .ok (String.ofList (s ++ ['s']))

/-- The `match s.split_once('.')` of `visit_str`: the seconds, and the digits after the point
scaled to nanoseconds. The length of the digits is that of their UTF-8 bytes, cast to a `u32`;
their product with the scale is a `u32` multiplication. -/
def readParts (s : List Char) : Option (Except String Duration) :=
  match Rust.splitOnce '.' s with
  | some (secondsStr, decimalStr) =>
    if (decimalStr.map Char.utf8Size).sum % 2 ^ 32 ≤ 9 then
      let pow := 10 ^ (9 - (decimalStr.map Char.utf8Size).sum % 2 ^ 32)
      match Decimal.parseI64 secondsStr with
      | .error e => some (.error e.description)
      | .ok seconds =>
        match Decimal.parseU32 decimalStr with
        | .error e => some (.error e.description)
        | .ok decimal =>
          if decimal.toNat * pow < 2 ^ 32 then some (.ok ⟨seconds, Rust.asI32 (decimal.toNat * pow)⟩)
          else none
    else some (.error "too many decimal places")
  | none =>
    match Decimal.parseI64 s with
    | .error e => some (.error e.description)
    | .ok seconds => some (.ok ⟨seconds, 0⟩)

/-- The `visit_str` of `Deserialize for Duration`: strip the `s`, then a `-`, read the parts, and
negate both for a `-`. Negating the seconds overflows at `i64::MIN`; the nanoseconds read are
not negative, so negating them does not. -/
def deserialize (s : String) : Option (Except String Duration) :=
  match Rust.stripSuffix 's' s.toList with
  | none => some (.error "missing 's' suffix")
  | some s =>
    let (negative, s) : Bool × List Char :=
      match s with
      | '-' :: s => (true, s)
      | s => (false, s)
    match readParts s with
    | some (.ok duration) =>
      if negative then
        (Rust.checkedSubI64 0 duration.seconds).map fun seconds => .ok ⟨seconds, -duration.nanos⟩
      else some (.ok duration)
    | r => r

/-- The digits after the point are at most nine, and worth the nanoseconds once scaled to nine
places. -/
theorem fractionDigits_spec {n : Nat} (hn : n < 10 ^ 9) :
    fractionDigits n ≠ [] ∧ (∀ c ∈ fractionDigits n, c.isDigit = true) ∧
      (fractionDigits n).length ≤ 9 ∧
      Nat.ofDigitChars 10 (fractionDigits n) 0 * 10 ^ (9 - (fractionDigits n).length) = n := by
  have hms : n / 1000000 < 10 ^ 3 := by omega
  have hus : (n - n / 1000000 * 1000000) / 1000 < 10 ^ 3 := by omega
  have hns : n - n / 1000000 * 1000000 - (n - n / 1000000 * 1000000) / 1000 * 1000 < 10 ^ 3 := by
    omega
  have hdigits : ∀ m, ∀ c ∈ Decimal.formatPadded 3 m, c.isDigit = true :=
    fun _ _ hc => Decimal.isDigit_of_mem_formatPadded hc
  unfold fractionDigits splitNanos
  split
  · -- the milliseconds alone
    next millis heq =>
    simp only [Prod.mk.injEq] at heq
    obtain ⟨rfl, hus0, hns0⟩ := heq
    have hlen := Decimal.length_formatPadded (by decide) hms
    refine ⟨List.ne_nil_of_length_pos (by omega), hdigits _, by omega, ?_⟩
    rw [hlen, Decimal.ofDigitChars_formatPadded]
    omega
  · -- the milliseconds and the microseconds
    next millis micros hne heq =>
    simp only [Prod.mk.injEq] at heq
    obtain ⟨rfl, rfl, hns0⟩ := heq
    have hlen : (Decimal.formatPadded 3 (n / 1000000) ++
        Decimal.formatPadded 3 ((n - n / 1000000 * 1000000) / 1000)).length = 6 := by
      rw [List.length_append, Decimal.length_formatPadded (by decide) hms,
        Decimal.length_formatPadded (by decide) hus]
    refine ⟨List.ne_nil_of_length_pos (by omega),
      List.forall_mem_append.mpr ⟨hdigits _, hdigits _⟩, by omega, ?_⟩
    rw [hlen, Decimal.ofDigitChars_append_formatPadded _ (by decide) hus,
      Decimal.ofDigitChars_formatPadded]
    omega
  · -- all three
    next millis micros nanos hne hne' heq =>
    simp only [Prod.mk.injEq] at heq
    obtain ⟨rfl, rfl, rfl⟩ := heq
    have hlen : (Decimal.formatPadded 3 (n / 1000000) ++
        Decimal.formatPadded 3 ((n - n / 1000000 * 1000000) / 1000) ++
        Decimal.formatPadded 3 (n - n / 1000000 * 1000000 -
          (n - n / 1000000 * 1000000) / 1000 * 1000)).length = 9 := by
      rw [List.length_append, List.length_append, Decimal.length_formatPadded (by decide) hms,
        Decimal.length_formatPadded (by decide) hus, Decimal.length_formatPadded (by decide) hns]
    refine ⟨List.ne_nil_of_length_pos (by omega), List.forall_mem_append.mpr
      ⟨List.forall_mem_append.mpr ⟨hdigits _, hdigits _⟩, hdigits _⟩, by omega, ?_⟩
    rw [hlen, Decimal.ofDigitChars_append_formatPadded _ (by decide) hns,
      Decimal.ofDigitChars_append_formatPadded _ (by decide) hus,
      Decimal.ofDigitChars_formatPadded]
    omega

/-- `i64::from_str` of ASCII digits: their value below `2 ^ 63`, and an overflow from there. -/
theorem parseI64_of_digits {ds : List Char} (hne : ds ≠ []) (hds : ∀ c ∈ ds, c.isDigit = true) :
    Decimal.parseI64 ds = if Nat.ofDigitChars 10 ds 0 < 2 ^ 63 then .ok (Nat.ofDigitChars 10 ds 0)
      else .error .posOverflow := by
  rw [Decimal.parseI64, Decimal.parseInt_of_digits hne hds, Decimal.accumulate_zero hds (by decide)]
  exact if_congr (by omega) rfl rfl

/-- The parts of a string of seconds alone. -/
theorem readParts_of_digits {ds : List Char} (hne : ds ≠ []) (hds : ∀ c ∈ ds, c.isDigit = true) :
    readParts ds = some (if Nat.ofDigitChars 10 ds 0 < 2 ^ 63 then .ok ⟨Nat.ofDigitChars 10 ds 0, 0⟩
      else .error Decimal.IntErrorKind.posOverflow.description) := by
  have hdot : '.' ∉ ds := fun h => absurd (hds '.' h) (by decide)
  rw [readParts, Rust.splitOnce_eq_none hdot, parseI64_of_digits hne hds]
  by_cases hlt : Nat.ofDigitChars 10 ds 0 < 2 ^ 63
  · rw [if_pos hlt, if_pos hlt]
  · rw [if_neg hlt, if_neg hlt]

/-- The parts of a string of seconds, a point and at most nine digits. -/
theorem readParts_of_digits_fraction {ds f : List Char} (hne : ds ≠ [])
    (hds : ∀ c ∈ ds, c.isDigit = true) (hfne : f ≠ []) (hf : ∀ c ∈ f, c.isDigit = true)
    (hlen : f.length ≤ 9) :
    readParts (ds ++ '.' :: f) = some (if Nat.ofDigitChars 10 ds 0 < 2 ^ 63 then
      .ok ⟨Nat.ofDigitChars 10 ds 0, ((Nat.ofDigitChars 10 f 0 * 10 ^ (9 - f.length) : Nat) : Int)⟩
      else .error Decimal.IntErrorKind.posOverflow.description) := by
  have hdot : '.' ∉ ds := fun h => absurd (hds '.' h) (by decide)
  -- each digit is one byte
  have hbytes : (f.map Char.utf8Size).sum = f.length := by
    rw [List.map_congr_left fun c hc => Decimal.utf8Size_of_isDigit (hf c hc), List.map_const',
      List.sum_replicate, smul_eq_mul, Nat.mul_one]
  have hfrac := Decimal.ofDigitChars_lt_pow hf
  have hpow : 10 ^ f.length * 10 ^ (9 - f.length) = 10 ^ 9 := by
    rw [← Nat.pow_add, Nat.add_sub_cancel' hlen]
  have hscaled : Nat.ofDigitChars 10 f 0 * 10 ^ (9 - f.length) < 10 ^ 9 := by
    calc Nat.ofDigitChars 10 f 0 * 10 ^ (9 - f.length)
        < 10 ^ f.length * 10 ^ (9 - f.length) :=
          Nat.mul_lt_mul_of_pos_right hfrac (Nat.pow_pos (by decide))
      _ = 10 ^ 9 := hpow
  -- the digits alone are worth less than their scaled value, so they fit a `u32`
  have hunscaled : Nat.ofDigitChars 10 f 0 < 10 ^ 9 :=
    lt_of_le_of_lt (Nat.le_mul_of_pos_right _ (Nat.pow_pos (by decide))) hscaled
  have hdecimal : Decimal.parseU32 f = .ok (Nat.ofDigitChars 10 f 0) := by
    rw [Decimal.parseU32, Decimal.parseInt_of_digits hfne hf, Decimal.accumulate_zero hf (by decide),
      if_pos (by omega)]
  rw [readParts, Rust.splitOnce_append f hdot]
  dsimp only
  rw [hbytes, Nat.mod_eq_of_lt (by omega), if_pos hlen, parseI64_of_digits hne hds]
  by_cases hlt : Nat.ofDigitChars 10 ds 0 < 2 ^ 63
  · rw [if_pos hlt, if_pos hlt]
    dsimp only
    rw [hdecimal]
    dsimp only
    rw [Int.toNat_natCast, if_pos (by omega), Rust.asI32_of_lt (by omega)]
  · rw [if_neg hlt, if_neg hlt]

/-- The whole seconds as written: a sign for a negative value, then the digits of their
magnitude, a `-0` included. -/
theorem secondsDigits_of_normal (h : d.Normal) :
    (if d.seconds = 0 then (if d.nanos < 0 then ['-', '0'] else ['0'])
      else Decimal.formatPaddedInt 0 d.seconds) =
      (if d.value < 0 then ['-'] else []) ++ Nat.toDigits 10 d.seconds.natAbs := by
  have hsign_neg := h.sign_neg
  have hsign_pos := h.sign_pos
  have hvalue : d.value = d.seconds * 1000000000 + d.nanos := rfl
  -- a negative value is one of negative seconds, or of no seconds and negative nanoseconds
  rcases lt_trichotomy d.seconds 0 with hs | hs | hs
  · rw [if_neg hs.ne, Decimal.formatPaddedInt, if_pos hs, if_pos (by have := hsign_neg hs; omega),
      Decimal.formatPadded_zero]
    rfl
  · by_cases hneg : d.nanos < 0
    · rw [if_pos hs, if_pos hneg, if_pos (by omega), hs]
      rfl
    · rw [if_pos hs, if_neg hneg, if_neg (by omega), hs]
      rfl
  · rw [if_neg hs.ne', Decimal.formatPaddedInt_of_nonneg hs.le, if_neg (by have := hsign_pos hs; omega),
      Decimal.formatPadded_zero, List.nil_append, show d.seconds.toNat = d.seconds.natAbs by omega]

/-- A normal duration is written without error: its sign, whole seconds, the digits after a
point when there are nanoseconds, and the `s`. -/
theorem serialize_of_normal (h : d.Normal) :
    d.serialize = .ok (String.ofList ((if d.value < 0 then ['-'] else []) ++
      (Nat.toDigits 10 d.seconds.natAbs ++
        (if d.nanos = 0 then [] else '.' :: fractionDigits d.nanos.natAbs)) ++ ['s'])) := by
  have hconsistent :
      ¬(d.seconds ≠ 0 ∧ d.nanos ≠ 0 ∧ decide (d.nanos < 0) ≠ decide (d.seconds < 0)) := by
    rintro ⟨hs, hn, hsign⟩
    have hsign_neg := h.sign_neg
    have hsign_pos := h.sign_pos
    apply hsign
    simp only [decide_eq_decide]
    omega
  rw [serialize, if_neg hconsistent]
  dsimp only
  rw [secondsDigits_of_normal h]
  by_cases hn : d.nanos = 0
  · rw [if_neg (not_not.mpr hn), if_pos hn, List.append_nil]
  · rw [if_pos hn, if_neg hn, ← List.append_assoc]

/-- A string with the suffix and the sign stripped: its parts are read, and negated after a
sign. -/
theorem deserialize_signed (p : Prop) [Decidable p] {c : Char} {rest : List Char}
    (hc : c.isDigit = true) :
    deserialize (String.ofList ((if p then ['-'] else []) ++ c :: rest ++ ['s'])) =
      match readParts (c :: rest) with
      | some (.ok duration) =>
        if p then
          (Rust.checkedSubI64 0 duration.seconds).map fun seconds => .ok ⟨seconds, -duration.nanos⟩
        else some (.ok duration)
      | r => r := by
  rw [deserialize, String.toList_ofList, Rust.stripSuffix_append_singleton]
  by_cases hp : p
  · simp only [hp, if_true, List.cons_append, List.nil_append]
  · have hminus : c ≠ '-' := fun heq => absurd (heq ▸ hc) (by decide)
    -- a leading digit is no sign
    have hunsigned : (match c :: rest with
        | '-' :: s => (true, s)
        | s => (false, s)) = (false, c :: rest) := by
      split
      · next heq => exact absurd (List.cons.inj heq).1 hminus
      · rfl
    simp only [hp, if_false, List.nil_append, hunsigned, Bool.false_eq_true]

/-- The parts of a written normal duration: the magnitudes of its fields, unless the seconds are
`i64::MIN`, whose magnitude overflows an `i64`. -/
theorem readParts_of_normal (h : d.Normal) :
    readParts (Nat.toDigits 10 d.seconds.natAbs ++
        (if d.nanos = 0 then [] else '.' :: fractionDigits d.nanos.natAbs)) =
      some (if d.seconds.natAbs < 2 ^ 63 then .ok ⟨d.seconds.natAbs, d.nanos.natAbs⟩
        else .error Decimal.IntErrorKind.posOverflow.description) := by
  have hne := Nat.toDigits_ne_nil (b := 10) (n := d.seconds.natAbs)
  have hds : ∀ c ∈ Nat.toDigits 10 d.seconds.natAbs, c.isDigit = true :=
    fun _ hc => Nat.isDigit_of_mem_toDigits (by decide) (by decide) hc
  by_cases hn : d.nanos = 0
  · rw [if_pos hn, List.append_nil, readParts_of_digits hne hds, Nat.ofDigitChars_ten_toDigits, hn]
    rfl
  · have hnanos := h.nanos_lt
    have hnanos' := h.nanos_gt
    simp only [nanosPerSecond] at hnanos hnanos'
    obtain ⟨hfne, hf, hlen, hvalue⟩ := fractionDigits_spec (n := d.nanos.natAbs) (by omega)
    rw [if_neg hn, readParts_of_digits_fraction hne hds hfne hf hlen, hvalue,
      Nat.ofDigitChars_ten_toDigits]

/-- The JSON string of a normal duration reads back as the duration, save at `i64::MIN` whole
seconds: the digits after the sign overflow an `i64` before they are negated. -/
theorem json_string_reads_back (h : d.Normal) :
    ∃ s, d.serialize = .ok s ∧ deserialize s =
      if d.seconds = -2 ^ 63 then some (.error "number too large to fit in target type")
      else some (.ok d) := by
  obtain ⟨c, rest, hdigits⟩ := List.exists_cons_of_ne_nil
    (Nat.toDigits_ne_nil (b := 10) (n := d.seconds.natAbs))
  have hc : c.isDigit = true :=
    Nat.isDigit_of_mem_toDigits (by decide) (by decide) (hdigits ▸ List.mem_cons_self)
  refine ⟨_, serialize_of_normal h, ?_⟩
  rw [hdigits, List.cons_append, deserialize_signed _ hc, ← List.cons_append, ← hdigits,
    readParts_of_normal h]
  have hge := h.seconds_ge
  have hlt := h.seconds_lt
  by_cases hmin : d.seconds = -2 ^ 63
  · rw [if_neg (by omega), if_pos hmin]
    rfl
  · rw [if_pos (by omega), if_neg hmin]
    have hsign_neg := h.sign_neg
    have hsign_pos := h.sign_pos
    have hvalue : d.value = d.seconds * 1000000000 + d.nanos := rfl
    obtain ⟨seconds, nanos⟩ := d
    dsimp only at hge hlt hmin hsign_neg hsign_pos hvalue ⊢
    by_cases hneg : Duration.value ⟨seconds, nanos⟩ < 0
    · -- a negative duration is read as its magnitude and negated
      have hsub : Rust.checkedSubI64 0 seconds.natAbs = some seconds := by
        rw [Rust.checkedSubI64_eq_some]
        omega
      rw [if_pos hneg, hsub, Option.map_some, Option.some.injEq, Except.ok.injEq, Duration.mk.injEq]
      omega
    · rw [if_neg hneg, Option.some.injEq, Except.ok.injEq, Duration.mk.injEq]
      omega

/-- The duration of the source's test, `-90.002456301s`, reads back. -/
theorem json_string_of_minus_ninety_seconds :
    ∃ s, (⟨-90, -2456301⟩ : Duration).serialize = .ok s ∧ deserialize s =
      if (-90 : Int) = -2 ^ 63 then some (.error "number too large to fit in target type")
      else some (.ok ⟨-90, -2456301⟩) :=
  json_string_reads_back ⟨⟨by decide, by decide, by decide, by decide⟩, by decide, by decide⟩

end Duration

end Protobuf

end Tendermint
