import Tendermint.Lib.Rfc3339
import Tendermint.Lib.Rust
import Tendermint.Types.Proto

/-!
# Times as RFC 3339 text

`serializers/timestamp.rs` of `tendermint-proto` and the RFC 3339 half of `time.rs`: the formatter
`fmt_as_rfc3339_nanos`, which writes Go's `time.RFC3339Nano` form (a fraction of the second only
when there is one, without its trailing zeros, and `Z`); `Time::to_rfc3339` and
`Time::parse_from_rfc3339`; and the `serde` serializer of `google.protobuf.Timestamp`, through
which `Time` is serialized too.

The instants of the `time` crate are modelled by their nanoseconds from the Unix epoch, within its
years `-9999..=9999`; its calendar is `Calendar`, and its RFC 3339 parser `Rfc3339.parse`. The
formatter is modelled on instants in UTC, the only ones the repository formats, for which
`to_offset(UTC)` changes nothing; after parsing, `to_offset(UTC)` panics on an instant outside the
crate's years.

Every `Time` is written so that it parses back (`parse_fmtAsRfc3339Nanos`), with a fraction of one
to nine digits and no trailing zero (`fmtAsRfc3339Nanos_fraction`); every timestamp of the years
`1..=9999` is serialized so that it deserializes back.
-/

namespace Tendermint

open Calendar Decimal

namespace Time

/-- The instants of the years `1..=9999` are those from `minNanos` to `maxNanos`. -/
theorem mem_range_iff_year (nanos : Int) :
    (minNanos ≤ nanos ∧ nanos ≤ maxNanos) ↔
      1 ≤ (DateTime.ofUnixNanos nanos).date.year ∧
        (DateTime.ofUnixNanos nanos).date.year ≤ 9999 := by
  have hfirst := DateTime.le_year_ofUnixNanos_iff 1 nanos
  have hlast := DateTime.le_year_ofUnixNanos_iff 10000 nanos
  have hstart : (Date.mk 1 1 1).toDays = -719162 := by decide
  have hend : (Date.mk 10000 1 1).toDays = 2932897 := by decide
  rw [hstart] at hfirst
  rw [hend] at hlast
  simp only [minNanos, maxNanos, nanosPerDay] at hfirst hlast ⊢
  omega

/-- `Time::from_utc`: an instant in UTC, if its year is one of `1..=9999`. -/
def fromUtc (t : Int) : Except Error Time :=
  if h : 1 ≤ (DateTime.ofUnixNanos t).date.year ∧ (DateTime.ofUnixNanos t).date.year ≤ 9999 then
    .ok ⟨t, ((mem_range_iff_year t).mpr h).1, ((mem_range_iff_year t).mpr h).2⟩
  else .error .dateOutOfRange

theorem fromUtc_nanos (t : Time) : fromUtc t.nanos = .ok t := by
  rw [fromUtc, dif_pos ((mem_range_iff_year t.nanos).mp ⟨t.ge, t.le⟩)]

end Time

/-- `OffsetDateTime::from_unix_timestamp_nanos`: the instant, if it is one of the `time` crate's
years `-9999..=9999`. -/
def fromUnixTimestampNanos (nanos : Int) : Option Int :=
  if Time.primitiveMinNanos ≤ nanos ∧ nanos ≤ Time.maxNanos then some nanos else none

/-- `to_offset(offset!(UTC))` of a parsed date-time: its instant, or a panic when the instant is
outside the `time` crate's years. -/
def toOffsetUtc (parsed : Rfc3339.Parsed) : Option Int :=
  fromUnixTimestampNanos parsed.toUnixNanos

/-! ## The formatter -/

/-- The loop of `fmt_as_rfc3339_nanos` that strips the trailing zeros of the fraction, taking one
off its width for each. The loop counts the width down; it stops at a zero width, which no fraction
of `1..10 ^ 9` nanoseconds reaches. -/
def stripTrailingZeros : Nat → Nat → Nat × Nat
  | secfrac, 0 => (secfrac, 0)
  | secfrac, secfracWidth + 1 =>
    if secfrac % 10 = 0 then stripTrailingZeros (secfrac / 10) secfracWidth
    else (secfrac, secfracWidth + 1)

/-- `{year:04}-{month:02}-{day:02}T{hour:02}:{minute:02}:{second:02}`, the part of the formats of
`fmt_as_rfc3339_nanos` before the fraction. -/
def fmtDateTime (t : DateTime) : List Char :=
  formatPaddedInt 4 t.date.year ++ '-' :: formatPadded 2 t.date.month ++ '-' ::
    formatPadded 2 t.date.day ++ 'T' :: formatPadded 2 t.hour ++ ':' :: formatPadded 2 t.minute ++
    ':' :: formatPadded 2 t.second

/-- `fmt_as_rfc3339_nanos`, on an instant in UTC: the date and time, then the nanoseconds if there
are any, without their trailing zeros, then `Z`. -/
def fmtAsRfc3339Nanos (t : Int) : List Char :=
  let t := DateTime.ofUnixNanos t
  let nanos := t.nanosecond
  if nanos = 0 then fmtDateTime t ++ ['Z']
  else
    let secfrac := stripTrailingZeros nanos 9
    fmtDateTime t ++ '.' :: formatPadded secfrac.2 secfrac.1 ++ ['Z']

/-- `to_rfc3339_nanos`. -/
def toRfc3339Nanos (t : Int) : List Char := fmtAsRfc3339Nanos t

/-- The stripped fraction: one to `width` digits, the last of them not zero, worth the fraction in
its first `width` places. -/
theorem stripTrailingZeros_spec {width secfrac : Nat} (hpos : 0 < secfrac)
    (hlt : secfrac < 10 ^ width) :
    1 ≤ (stripTrailingZeros secfrac width).2 ∧ (stripTrailingZeros secfrac width).2 ≤ width ∧
      (stripTrailingZeros secfrac width).1 < 10 ^ (stripTrailingZeros secfrac width).2 ∧
      (stripTrailingZeros secfrac width).1 % 10 ≠ 0 ∧
      (stripTrailingZeros secfrac width).1 * 10 ^ (width - (stripTrailingZeros secfrac width).2) =
        secfrac := by
  -- induction on the width the loop counts down, with the fraction generalized
  induction width generalizing secfrac with
  | zero => simp at hlt; omega
  | succ width ih =>
    rw [stripTrailingZeros]
    by_cases hz : secfrac % 10 = 0
    · -- a zero digit goes, and the width with it
      rw [if_pos hz]
      have hlt' : secfrac / 10 < 10 ^ width := by rw [Nat.pow_succ] at hlt; omega
      obtain ⟨h1, h2, h3, h4, h5⟩ := ih (by omega) hlt'
      refine ⟨h1, by omega, h3, h4, ?_⟩
      rw [show width + 1 - (stripTrailingZeros (secfrac / 10) width).2 =
          width - (stripTrailingZeros (secfrac / 10) width).2 + 1 by omega, Nat.pow_succ,
        ← Nat.mul_assoc, h5]
      omega
    · rw [if_neg hz]
      exact ⟨by omega, le_refl _, hlt, hz, by simp⟩

/-- The date and time of a date-time of the years `0..=9999`, written and followed by anything, are
read back, and the parser goes on with the fraction and the offset. -/
theorem parseItems_fmtDateTime_append {t : DateTime} (hvalid : t.Valid) (h0 : 0 ≤ t.date.year)
    (h1 : t.date.year ≤ 9999) (rest : List Char) :
    Rfc3339.parseItems (fmtDateTime t ++ rest) = (do
      let (nanosecond, cs) ← Rfc3339.subsecond rest
      let (offset, cs) ← Rfc3339.offset cs
      pure (⟨⟨t.date, t.hour, t.minute, t.second, nanosecond⟩, offset⟩, cs)) := by
  obtain ⟨⟨year, month, day⟩, hour, minute, second, nanosecond⟩ := t
  obtain ⟨⟨hm0, hm1, hd0, hd1⟩, hh, hmin, hs, -⟩ := hvalid
  have hd31 := le_trans hd1 (daysInMonth_le _ _)
  dsimp only at *
  have hyear : year.toNat < 10 ^ 4 := by omega
  have hmonth : ¬ (month < 1 ∨ month > 12) := by omega
  simp only [fmtDateTime, Rfc3339.parseItems, List.append_assoc, List.cons_append,
    formatPaddedInt_of_nonneg h0,
    Rfc3339.component_formatPadded_append "year" (by decide) hyear,
    Rfc3339.component_formatPadded_append "month" (by decide) (show month < 10 ^ 2 by omega),
    Rfc3339.component_formatPadded_append "day" (by decide) (show day < 10 ^ 2 by omega),
    Rfc3339.component_formatPadded_append "hour" (by decide) (show hour < 10 ^ 2 by omega),
    Rfc3339.component_formatPadded_append "minute" (by decide) (show minute < 10 ^ 2 by omega),
    Rfc3339.component_formatPadded_append "second" (by decide) (show second < 10 ^ 2 by omega),
    Rfc3339.literal_cons, Rfc3339.literalIgnoreCase_cons (show 'T'.toUpper = 'T' by decide),
    hmonth, Rust.ok_bind, Int.toNat_of_nonneg h0]
  rfl

/-- No dot is written before the fraction. -/
theorem dot_not_mem_fmtDateTime (t : DateTime) : '.' ∉ fmtDateTime t := by
  have hpadded : ∀ width n, '.' ∉ formatPadded width n := fun _ _ hm =>
    absurd (isDigit_of_mem_formatPadded hm) (by decide)
  have hpaddedInt : ∀ width n, '.' ∉ formatPaddedInt width n := fun _ _ hm =>
    (mem_formatPaddedInt hm).elim (by decide) (by decide)
  simp [fmtDateTime, hpadded, hpaddedInt]

/-- An instant of the years `0..=9999`, written by the formatter, is read back as its date-time in
UTC. -/
theorem parse_fmtAsRfc3339Nanos {nanos : Int} (h0 : 0 ≤ (DateTime.ofUnixNanos nanos).date.year)
    (h1 : (DateTime.ofUnixNanos nanos).date.year ≤ 9999) :
    Rfc3339.parse (fmtAsRfc3339Nanos nanos) = .ok ⟨DateTime.ofUnixNanos nanos, 0⟩ := by
  have hvalid := DateTime.valid_ofUnixNanos nanos
  have hutc : ∀ c ∈ (['Z'] : List Char).head?, c.isDigit = false ∧ c ≠ '.' := by
    intro c hc
    cases hc
    exact ⟨rfl, by decide⟩
  rw [fmtAsRfc3339Nanos]
  generalize DateTime.ofUnixNanos nanos = t at h0 h1 hvalid ⊢
  dsimp only
  split_ifs with hz
  · -- no fraction: the offset `Z` follows the seconds
    rw [Rfc3339.parse, parseItems_fmtDateTime_append hvalid h0 h1,
      Rfc3339.subsecond_of_head_ne fun c hc => (hutc c hc).2]
    simp only [Rust.ok_bind, Rfc3339.offset_utc, Rust.pure_eq_ok, ← hz, hvalid, ne_eq,
      not_true_eq_false, if_false]
  · -- the fraction's digits are worth the nanoseconds
    obtain ⟨hw0, hw1, hlt, -, hval⟩ :=
      stripTrailingZeros_spec (Nat.pos_of_ne_zero hz) hvalid.2.2.2.2
    have hlen := length_formatPadded (by omega) hlt
    rw [List.append_assoc, List.cons_append, Rfc3339.parse, parseItems_fmtDateTime_append hvalid h0 h1,
      Rfc3339.subsecond_append (fun _ hc => isDigit_of_mem_formatPadded hc) (by omega) (by omega)
        fun c hc => (hutc c hc).1]
    simp only [Rust.ok_bind, Rfc3339.offset_utc, Rust.pure_eq_ok, hlen, ofDigitChars_formatPadded,
      hval]
    simp only [hvalid, ne_eq, not_true_eq_false, if_false]

namespace Time

/-- `Time::to_rfc3339`: the instant, assumed in UTC. -/
def toRfc3339 (t : Time) : List Char := toRfc3339Nanos t.nanos

/-- `Time::parse_from_rfc3339`. -/
def parseFromRfc3339 (s : List Char) : ExceptT Error Option Time := do
  let date ← Rust.result ((Rfc3339.parse s).mapError .timeParse)
  let date ← ExceptT.lift (toOffsetUtc date)
  Rust.result (fromUtc date)

end Time

/-- The instants of the years `1..=9999` are instants of the `time` crate. -/
theorem fromUnixTimestampNanos_of_mem {nanos : Int} (h : Time.minNanos ≤ nanos ∧ nanos ≤ Time.maxNanos) :
    fromUnixTimestampNanos nanos = some nanos := by
  have hmin : Time.primitiveMinNanos ≤ Time.minNanos := by decide
  rw [fromUnixTimestampNanos, if_pos ⟨le_trans hmin h.1, h.2⟩]

/-- A date-time read in UTC is the instant it was written from. -/
theorem toOffsetUtc_ofUnixNanos {nanos : Int} (h : Time.minNanos ≤ nanos ∧ nanos ≤ Time.maxNanos) :
    toOffsetUtc ⟨DateTime.ofUnixNanos nanos, 0⟩ = some nanos := by
  rw [toOffsetUtc, Rfc3339.Parsed.toUnixNanos, DateTime.toUnixNanos_ofUnixNanos, zero_mul, sub_zero,
    fromUnixTimestampNanos_of_mem h]

/-- An instant of the years `1..=9999`, formatted, parses back to its date-time in UTC. -/
theorem parse_toRfc3339Nanos {nanos : Int} (h : Time.minNanos ≤ nanos ∧ nanos ≤ Time.maxNanos) :
    Rfc3339.parse (toRfc3339Nanos nanos) = .ok ⟨DateTime.ofUnixNanos nanos, 0⟩ := by
  have hyear := (Time.mem_range_iff_year nanos).mp h
  exact parse_fmtAsRfc3339Nanos (by omega) hyear.2

/-- `Time::parse_from_rfc3339` of `Time::to_rfc3339`. -/
theorem Time.parseFromRfc3339_toRfc3339 (t : Time) :
    (parseFromRfc3339 t.toRfc3339).run = some (.ok t) := by
  have hrange : Time.minNanos ≤ t.nanos ∧ t.nanos ≤ Time.maxNanos := ⟨t.ge, t.le⟩
  rw [parseFromRfc3339, toRfc3339, parse_toRfc3339Nanos hrange]
  simp only [Except.mapError, Rust.run_result_ok_bind]
  rw [Rust.run_bind_of_ok (Rust.run_lift_eq_ok.mpr (toOffsetUtc_ofUnixNanos hrange)),
    fromUtc_nanos, Rust.run_result]

/-- The formatter writes the date and time, without a dot, and then a fraction only when the
instant has nanoseconds: one to nine digits, the last not `0`, worth the nanoseconds in the first
nine places. -/
theorem fmtAsRfc3339Nanos_fraction (nanos : Int) :
    ∃ pre frac, fmtAsRfc3339Nanos nanos = pre ++ frac ++ ['Z'] ∧ '.' ∉ pre ∧
      ((DateTime.ofUnixNanos nanos).nanosecond = 0 → frac = []) ∧
      ((DateTime.ofUnixNanos nanos).nanosecond ≠ 0 → ∃ digits, frac = '.' :: digits ∧
        1 ≤ digits.length ∧ digits.length ≤ 9 ∧ (∀ c ∈ digits, c.isDigit = true) ∧
        digits.getLast? ≠ some '0' ∧
        Nat.ofDigitChars 10 digits 0 * 10 ^ (9 - digits.length) =
          (DateTime.ofUnixNanos nanos).nanosecond) := by
  have hvalid := DateTime.valid_ofUnixNanos nanos
  rw [fmtAsRfc3339Nanos]
  generalize DateTime.ofUnixNanos nanos = t at hvalid ⊢
  dsimp only
  by_cases hz : t.nanosecond = 0
  · refine ⟨fmtDateTime t, [], by rw [if_pos hz, List.append_nil], dot_not_mem_fmtDateTime t,
      fun _ => rfl, fun hne => absurd hz hne⟩
  · obtain ⟨hw0, hw1, hlt, hlast, hval⟩ :=
      stripTrailingZeros_spec (Nat.pos_of_ne_zero hz) hvalid.2.2.2.2
    have hlen := length_formatPadded (by omega) hlt
    refine ⟨fmtDateTime t, '.' :: formatPadded (stripTrailingZeros t.nanosecond 9).2
      (stripTrailingZeros t.nanosecond 9).1, by rw [if_neg hz], dot_not_mem_fmtDateTime t,
      fun h => absurd h hz, fun _ => ⟨_, rfl, ?_⟩⟩
    rw [hlen, ofDigitChars_formatPadded]
    exact ⟨hw0, hw1, fun _ hc => isDigit_of_mem_formatPadded hc, getLast?_formatPadded hlast, hval⟩

/-! ## The serializer of timestamps -/

/-- The errors of `serializers::timestamp`: the `time` crate's parse error, or a message of the
serializer's own (`Error::custom`). -/
inductive SerdeError
  | parse (e : Rfc3339.ParseError)
  | custom (msg : String)
deriving DecidableEq, Repr

namespace TimestampSerializer

/-- `serializers::timestamp::serialize`, to the string it writes. -/
def serialize (value : Timestamp) : Except SerdeError (List Char) :=
  if value.nanos < 0 ∨ value.nanos > 999999999 then .error (.custom "invalid nanoseconds in time")
  else
    match fromUnixTimestampNanos (value.seconds * 1000000000 + value.nanos) with
    | none => .error (.custom "invalid time")
    | some datetime => .ok (toRfc3339Nanos datetime)

/-- `serializers::timestamp::deserialize`, from the string it reads. -/
def deserialize (valueString : List Char) : ExceptT SerdeError Option Timestamp := do
  let t ← Rust.result ((Rfc3339.parse valueString).mapError .parse)
  let t ← ExceptT.lift (toOffsetUtc t)
  let year := (DateTime.ofUnixNanos t).date.year
  if ¬ (1 ≤ year ∧ year ≤ 9999) then throw (.custom "date is out of range")
  -- `unix_timestamp()` and `nanosecond()`
  pure ⟨t / 1000000000, t % 1000000000⟩

/-- A timestamp of an instant of the years `1..=9999`, with its nanoseconds below a second, is
written as the instant's RFC 3339 text. -/
theorem serialize_eq {value : Timestamp} (hnanos : 0 ≤ value.nanos ∧ value.nanos < 10 ^ 9)
    (h : Time.minNanos ≤ value.seconds * 10 ^ 9 + value.nanos ∧
      value.seconds * 10 ^ 9 + value.nanos ≤ Time.maxNanos) :
    serialize value = .ok (toRfc3339Nanos (value.seconds * 10 ^ 9 + value.nanos)) := by
  rw [serialize, if_neg (by omega)]
  rw [show (1000000000 : Int) = 10 ^ 9 from rfl, fromUnixTimestampNanos_of_mem h]

/-- Reading back the RFC 3339 text of an instant of the years `1..=9999`: its seconds and
nanoseconds. -/
theorem deserialize_toRfc3339Nanos {nanos : Int}
    (h : Time.minNanos ≤ nanos ∧ nanos ≤ Time.maxNanos) :
    (deserialize (toRfc3339Nanos nanos)).run = some (.ok ⟨nanos / 10 ^ 9, nanos % 10 ^ 9⟩) := by
  have hyear := (Time.mem_range_iff_year nanos).mp h
  rw [deserialize, parse_toRfc3339Nanos h]
  simp only [Except.mapError, Rust.run_result_ok_bind]
  rw [Rust.run_bind_of_ok (Rust.run_lift_eq_ok.mpr (toOffsetUtc_ofUnixNanos h))]
  simp only [hyear, and_self, not_true_eq_false, if_false]
  rfl

end TimestampSerializer

/-- A timestamp of an instant of the years `1..=9999`, with its nanoseconds below a second, is a
`Time`. -/
theorem Time.tryFromTimestamp_of_mem {ts : Timestamp} (hnanos : 0 ≤ ts.nanos ∧ ts.nanos < 10 ^ 9)
    (h : Time.minNanos ≤ ts.seconds * 10 ^ 9 + ts.nanos ∧
      ts.seconds * 10 ^ 9 + ts.nanos ≤ Time.maxNanos) :
    ∃ t, Time.tryFromTimestamp ts = .ok t := by
  have htoNat : ((ts.nanos.toNat : Nat) : Int) = ts.nanos := Int.toNat_of_nonneg hnanos.1
  refine ⟨⟨ts.seconds * 10 ^ 9 + ts.nanos, h.1, h.2⟩, ?_⟩
  rw [Time.tryFromTimestamp, if_neg (by omega), Time.fromUnixTimestamp, if_neg (by omega)]
  simp only [htoNat]
  rw [dif_pos h]

/-- Times round-trip through RFC 3339 text and through timestamps: every `Time` parses back from
its text, whose fraction has one to nine digits and no trailing zero and is left out without
nanoseconds; every `Time` comes back from its timestamp; and every timestamp of the years
`1..=9999` with its nanoseconds below a second is serialized to a text that deserializes back to
it, and is the timestamp of the `Time` it converts to. -/
theorem time_encodings_roundtrip :
    (∀ t : Time, (Time.parseFromRfc3339 t.toRfc3339).run = some (.ok t)) ∧
    (∀ nanos : Int, ∃ pre frac, fmtAsRfc3339Nanos nanos = pre ++ frac ++ ['Z'] ∧ '.' ∉ pre ∧
      ((DateTime.ofUnixNanos nanos).nanosecond = 0 → frac = []) ∧
      ((DateTime.ofUnixNanos nanos).nanosecond ≠ 0 → ∃ digits, frac = '.' :: digits ∧
        1 ≤ digits.length ∧ digits.length ≤ 9 ∧ (∀ c ∈ digits, c.isDigit = true) ∧
        digits.getLast? ≠ some '0' ∧
        Nat.ofDigitChars 10 digits 0 * 10 ^ (9 - digits.length) =
          (DateTime.ofUnixNanos nanos).nanosecond)) ∧
    (∀ t : Time, Time.tryFromTimestamp t.toTimestamp = .ok t) ∧
    ∀ ts : Timestamp, 0 ≤ ts.nanos → ts.nanos < 10 ^ 9 →
      1 ≤ (DateTime.ofUnixNanos (ts.seconds * 10 ^ 9 + ts.nanos)).date.year →
      (DateTime.ofUnixNanos (ts.seconds * 10 ^ 9 + ts.nanos)).date.year ≤ 9999 →
      (∃ s, TimestampSerializer.serialize ts = .ok s ∧
        (TimestampSerializer.deserialize s).run = some (.ok ts)) ∧
      ∃ t, Time.tryFromTimestamp ts = .ok t ∧ t.toTimestamp = ts := by
  refine ⟨Time.parseFromRfc3339_toRfc3339, fmtAsRfc3339Nanos_fraction,
    Time.tryFromTimestamp_toTimestamp, fun ts hn0 hn1 hy0 hy1 => ?_⟩
  have hrange := (Time.mem_range_iff_year _).mpr ⟨hy0, hy1⟩
  refine ⟨⟨_, TimestampSerializer.serialize_eq ⟨hn0, hn1⟩ hrange, ?_⟩, ?_⟩
  · -- the seconds and nanoseconds of the instant are those of the timestamp
    rw [TimestampSerializer.deserialize_toRfc3339Nanos hrange]
    have hsec : (ts.seconds * 10 ^ 9 + ts.nanos) / 10 ^ 9 = ts.seconds := by omega
    have hnanos : (ts.seconds * 10 ^ 9 + ts.nanos) % 10 ^ 9 = ts.nanos := by omega
    rw [hsec, hnanos]
  · obtain ⟨t, ht⟩ := Time.tryFromTimestamp_of_mem ⟨hn0, hn1⟩ hrange
    exact ⟨t, ht, Time.toTimestamp_of_tryFromTimestamp ht⟩

end Tendermint
