import Tendermint.Lib.Calendar
import Tendermint.Lib.Decimal

/-!
# RFC 3339 date-times

The grammar of RFC 3339 section 5.6, as the `time` crate's `Rfc3339` description reads it:

    date-time = date-fullyear "-" date-month "-" date-mday "T"
                time-hour ":" time-minute ":" time-second [time-secfrac] time-offset

with a year of four digits, the other numbers of two, a fraction of one or more digits (those past
the ninth count for nothing), `T` and `Z` in either case, and an offset `Z` or `±hh:mm`. The whole
input must be read, and the date and time must be ones of the calendar. Leap seconds (a second
`60`) are not modelled.

The parser is complete on each piece of a written date-time: a number in its digits
(`component_formatPadded_append`), a fraction in one to nine digits (`subsecond_append`) and the
offset `Z`.
-/

namespace Rfc3339

open Calendar Decimal

/-- The errors of the `time` crate's parser. -/
inductive ParseError
  | invalidLiteral
  | invalidComponent (name : String)
  | componentRange
  | unexpectedTrailingCharacters
deriving DecidableEq, Repr

/-- A date-time as it is written: the date and the time of day, and the offset from UTC in
seconds. -/
structure Parsed where
  dateTime : DateTime
  offset : Int
deriving DecidableEq, Repr

/-- The nanoseconds from the Unix epoch to the instant a parsed date-time denotes. -/
def Parsed.toUnixNanos (p : Parsed) : Int := p.dateTime.toUnixNanos - p.offset * 10 ^ 9

/-- One given character. -/
def literal (c : Char) : List Char → Except ParseError (List Char)
  | c' :: rest => if c' = c then .ok rest else .error .invalidLiteral
  | [] => .error .invalidLiteral

/-- One given letter, in either case. -/
def literalIgnoreCase (c : Char) : List Char → Except ParseError (List Char)
  | c' :: rest => if c'.toUpper = c then .ok rest else .error .invalidLiteral
  | [] => .error .invalidLiteral

/-- A component of a fixed count of digits. -/
def component (name : String) (count : Nat) (cs : List Char) : Except ParseError (Nat × List Char) :=
  match readDigits count cs with
  | some r => .ok r
  | none => .error (.invalidComponent name)

/-- The digits of a fraction after its first: each worth a tenth of the one before, and nothing
past the ninth. -/
def subsecondDigits : Nat → Nat → List Char → Nat × List Char
  | multiplier, value, c :: rest =>
    if c.isDigit then subsecondDigits (multiplier / 10) (value + digitValue c * multiplier) rest
    else (value, c :: rest)
  | _, value, [] => (value, [])

/-- The optional fraction of a second, in nanoseconds: a dot and one digit or more. -/
def subsecond : List Char → Except ParseError (Nat × List Char)
  | '.' :: c :: rest =>
    if c.isDigit then .ok (subsecondDigits 10000000 (digitValue c * 100000000) rest)
    else .error (.invalidComponent "subsecond")
  | ['.'] => .error (.invalidComponent "subsecond")
  | cs => .ok (0, cs)

/-- The offset from UTC, in seconds: `Z`, or a sign, hours up to `23` and minutes up to `59`. -/
def offset : List Char → Except ParseError (Int × List Char)
  | c :: rest =>
    if c.toUpper = 'Z' then .ok (0, rest)
    else if c = '+' ∨ c = '-' then do
      let (hours, rest) ← component "offset hour" 2 rest
      if hours > 23 then throw (.invalidComponent "offset hour")
      let rest ← literal ':' rest
      let (minutes, rest) ← component "offset minute" 2 rest
      if minutes > 59 then throw .componentRange
      let seconds : Int := hours * 3600 + minutes * 60
      pure (if c = '-' then -seconds else seconds, rest)
    else .error (.invalidComponent "offset hour")
  | [] => .error (.invalidComponent "offset hour")

/-- The items of a date-time, in the grammar's order, and what follows them. -/
def parseItems (cs : List Char) : Except ParseError (Parsed × List Char) := do
  let (year, cs) ← component "year" 4 cs
  let cs ← literal '-' cs
  let (month, cs) ← component "month" 2 cs
  if month < 1 ∨ month > 12 then throw (.invalidComponent "month")
  let cs ← literal '-' cs
  let (day, cs) ← component "day" 2 cs
  let cs ← literalIgnoreCase 'T' cs
  let (hour, cs) ← component "hour" 2 cs
  let cs ← literal ':' cs
  let (minute, cs) ← component "minute" 2 cs
  let cs ← literal ':' cs
  let (second, cs) ← component "second" 2 cs
  let (nanosecond, cs) ← subsecond cs
  let (offset, cs) ← offset cs
  pure (⟨⟨⟨year, month, day⟩, hour, minute, second, nanosecond⟩, offset⟩, cs)

/-- `OffsetDateTime::parse(s, &Rfc3339)`: the whole input, read as a date-time of the calendar. -/
def parse (cs : List Char) : Except ParseError Parsed := do
  let (parsed, rest) ← parseItems cs
  if rest ≠ [] then throw .unexpectedTrailingCharacters
  if ¬ parsed.dateTime.Valid then throw .componentRange
  pure parsed

/-! ## Reading the pieces of a written date-time -/

@[simp] theorem literal_cons (c : Char) (rest : List Char) : literal c (c :: rest) = .ok rest := by
  rw [literal, if_pos rfl]

theorem literalIgnoreCase_cons {c : Char} (h : c.toUpper = c) (rest : List Char) :
    literalIgnoreCase c (c :: rest) = .ok rest := by
  rw [literalIgnoreCase, if_pos h]

theorem component_formatPadded_append (name : String) {count n : Nat} (hc : 0 < count)
    (h : n < 10 ^ count) (rest : List Char) :
    component name count (formatPadded count n ++ rest) = .ok (n, rest) := by
  rw [component, readDigits_formatPadded_append hc h]

/-- The offset `Z` of UTC. -/
theorem offset_utc (rest : List Char) : offset ('Z' :: rest) = .ok (0, rest) := by
  rw [offset, if_pos (by decide)]

/-- The digit loop on written digits followed by something else: every digit worth its tenth of
the one before, from the multiplier on. -/
theorem subsecondDigits_append {ds rest : List Char} (hd : ∀ c ∈ ds, c.isDigit = true)
    (hr : ∀ c ∈ rest.head?, c.isDigit = false) (k value : Nat) (hk : ds.length ≤ k + 1) :
    subsecondDigits (10 ^ k) value (ds ++ rest) =
      (value + Nat.ofDigitChars 10 ds 0 * 10 ^ (k + 1 - ds.length), rest) := by
  -- induction on the digits, with the multiplier and the value read so far generalized
  induction ds generalizing k value with
  | nil =>
    cases rest with
    | nil => simp [subsecondDigits]
    | cons c rest =>
      rw [List.nil_append, subsecondDigits, if_neg (by rw [hr c rfl]; decide)]
      simp
  | cons c ds ih =>
    have hc := hd c List.mem_cons_self
    rw [List.length_cons] at hk
    rw [List.cons_append, subsecondDigits, if_pos hc, ofDigitChars_cons_zero, List.length_cons]
    cases k with
    | zero =>
      -- one digit left: the loop's multiplier has reached `1`
      have hnil : ds = [] := List.eq_nil_of_length_eq_zero (by omega)
      subst hnil
      rw [List.nil_append]
      cases rest with
      | nil => simp [subsecondDigits]
      | cons c' rest =>
        rw [subsecondDigits, if_neg (by rw [hr c' rfl]; decide)]
        simp
    | succ k =>
      have hpow : 10 ^ (k + 1) / 10 = 10 ^ k := by
        rw [Nat.pow_succ, Nat.mul_div_cancel _ (by decide)]
      rw [hpow, ih (fun c' hc' => hd c' (List.mem_cons_of_mem c hc')) k _ (by omega)]
      -- the first digit is worth `10 ^ (k + 1)`, its place in front of the others
      have hsplit : 10 ^ (k + 1) = 10 ^ ds.length * 10 ^ (k + 1 - ds.length) := by
        rw [← Nat.pow_add]
        congr 1
        omega
      rw [show k + 1 + 1 - (ds.length + 1) = k + 1 - ds.length by omega, hsplit]
      congr 1
      ring

/-- A fraction of one to nine written digits, followed by something else, is read as the
nanoseconds its digits are worth in the first nine places. -/
theorem subsecond_append {ds rest : List Char} (hd : ∀ c ∈ ds, c.isDigit = true)
    (hlen0 : 1 ≤ ds.length) (hlen : ds.length ≤ 9) (hr : ∀ c ∈ rest.head?, c.isDigit = false) :
    subsecond ('.' :: (ds ++ rest)) =
      .ok (Nat.ofDigitChars 10 ds 0 * 10 ^ (9 - ds.length), rest) := by
  obtain ⟨c, ds', rfl⟩ := List.exists_cons_of_ne_nil (List.ne_nil_of_length_pos hlen0)
  have hc := hd c List.mem_cons_self
  rw [List.length_cons] at hlen
  have hloop := subsecondDigits_append (fun c' hc' => hd c' (List.mem_cons_of_mem c hc')) hr 7
    (digitValue c * 100000000) (by omega)
  rw [List.cons_append, subsecond, if_pos hc,
    show (10000000 : Nat) = 10 ^ 7 from rfl, hloop, ofDigitChars_cons_zero, List.length_cons]
  -- the first digit is worth `10 ^ 8`
  have hsplit : 100000000 = 10 ^ ds'.length * 10 ^ (9 - (ds'.length + 1)) := by
    rw [← Nat.pow_add, show ds'.length + (9 - (ds'.length + 1)) = 8 by omega]
  rw [show 7 + 1 - ds'.length = 9 - (ds'.length + 1) by omega, hsplit]
  congr 2
  ring

/-- Without a dot there is no fraction. -/
theorem subsecond_of_head_ne {cs : List Char} (h : ∀ c ∈ cs.head?, c ≠ '.') :
    subsecond cs = .ok (0, cs) := by
  unfold subsecond
  split
  · exact absurd rfl (h '.' rfl)
  · exact absurd rfl (h '.' rfl)
  · rfl

end Rfc3339
