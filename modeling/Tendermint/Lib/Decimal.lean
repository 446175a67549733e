import Mathlib

/-!
# Fixed-width decimal numbers

Numbers in ASCII decimal digits, as `core::fmt` writes an integer with a width and the `0` flag
(`{:04}`), and as a parser reads a fixed count of digits. A number below `10 ^ width` is written in
exactly `width` digits (`length_formatPadded`) and read back from them, whatever follows
(`readDigits_formatPadded_append`).
-/

namespace Decimal

/-- `{:0width$}` of an unsigned integer: its decimal digits, behind zeros up to the width. -/
def formatPadded (width n : Nat) : List Char :=
  List.replicate (width - (Nat.toDigits 10 n).length) '0' ++ Nat.toDigits 10 n

/-- `{:0width$}` of a signed integer: the sign of a negative one, then its digits behind zeros up
to the width, in which the sign counts. -/
def formatPaddedInt (width : Nat) (n : Int) : List Char :=
  if n < 0 then '-' :: formatPadded (width - 1) n.natAbs else formatPadded width n.toNat

/-- The value of an ASCII digit. -/
def digitValue (c : Char) : Nat := c.toNat - '0'.toNat

/-- Exactly `count` ASCII digits at the start of the input, and their value. -/
def readDigits (count : Nat) (cs : List Char) : Option (Nat × List Char) :=
  if (cs.take count).length = count ∧ (cs.take count).all Char.isDigit then
    some (Nat.ofDigitChars 10 (cs.take count) 0, cs.drop count)
  else none

/-- A signed integer that is not negative is written as its magnitude. -/
theorem formatPaddedInt_of_nonneg {width : Nat} {n : Int} (h : 0 ≤ n) :
    formatPaddedInt width n = formatPadded width n.toNat := by
  rw [formatPaddedInt, if_neg (Int.not_lt.mpr h)]

/-- A number below `10 ^ width` is written in exactly `width` digits. -/
theorem length_formatPadded {width n : Nat} (hw : 0 < width) (h : n < 10 ^ width) :
    (formatPadded width n).length = width := by
  have hlen := (Nat.length_toDigits_le_iff (by decide) hw).mpr h
  rw [formatPadded, List.length_append, List.length_replicate]
  omega

/-- The padded digits are all ASCII digits. -/
theorem isDigit_of_mem_formatPadded {width n : Nat} {c : Char} (h : c ∈ formatPadded width n) :
    c.isDigit = true := by
  rcases List.mem_append.mp h with hz | hd
  · rw [List.eq_of_mem_replicate hz]
    rfl
  · exact Nat.isDigit_of_mem_toDigits (by decide) (by decide) hd

/-- A signed integer is written with a sign and ASCII digits only. -/
theorem mem_formatPaddedInt {width : Nat} {n : Int} {c : Char} (h : c ∈ formatPaddedInt width n) :
    c = '-' ∨ c.isDigit = true := by
  rw [formatPaddedInt] at h
  split at h
  · rcases List.mem_cons.mp h with rfl | hm
    · exact .inl rfl
    · exact .inr (isDigit_of_mem_formatPadded hm)
  · exact .inr (isDigit_of_mem_formatPadded h)

/-- A number whose last digit is not zero is not written with a trailing `0`. -/
theorem getLast?_formatPadded {width n : Nat} (h : n % 10 ≠ 0) :
    (formatPadded width n).getLast? ≠ some '0' := by
  have hdigit : ∀ d < 10, Nat.digitChar d = '0' → d = 0 := by decide
  have hlast : (Nat.toDigits 10 n).getLast? = some (Nat.digitChar (n % 10)) := by
    rw [Nat.toDigits_eq_if (by decide)]
    split
    · rw [Nat.mod_eq_of_lt ‹_›]
      rfl
    · exact List.getLast?_concat
  rw [formatPadded, List.getLast?_append, hlast]
  intro heq
  exact h (hdigit _ (Nat.mod_lt _ (by decide)) (Option.some.inj (by simpa using heq)))

/-- The digits written for a number are worth the number: the zeros in front count for nothing. -/
theorem ofDigitChars_formatPadded (width n : Nat) :
    Nat.ofDigitChars 10 (formatPadded width n) 0 = n := by
  rw [formatPadded, Nat.ofDigitChars_append, Nat.ofDigitChars_replicate_zero, Nat.mul_zero,
    Nat.ofDigitChars_ten_toDigits]

/-- A leading digit is worth its value in the place in front of the digits after it. -/
theorem ofDigitChars_cons_zero (c : Char) (ds : List Char) :
    Nat.ofDigitChars 10 (c :: ds) 0 = digitValue c * 10 ^ ds.length + Nat.ofDigitChars 10 ds 0 := by
  rw [Nat.ofDigitChars_cons, Nat.ofDigitChars_eq_ofDigitChars_zero, digitValue, Nat.mul_zero,
    Nat.zero_add, Nat.mul_comm]

/-- Reading `width` digits takes back a number written in `width` digits, whatever follows. -/
theorem readDigits_formatPadded_append {width n : Nat} (hw : 0 < width) (h : n < 10 ^ width)
    (rest : List Char) :
    readDigits width (formatPadded width n ++ rest) = some (n, rest) := by
  have hlen := length_formatPadded hw h
  have hdigits : (formatPadded width n).all Char.isDigit = true :=
    List.all_eq_true.mpr fun _ hc => isDigit_of_mem_formatPadded hc
  rw [readDigits, List.take_left' hlen, List.drop_left' hlen, if_pos ⟨hlen, hdigits⟩,
    ofDigitChars_formatPadded]

/-! ## Integers read by `from_str` -/

/-- `core::num::IntErrorKind`, as `from_str` of an integer raises it. -/
inductive IntErrorKind
  | empty
  | invalidDigit
  | posOverflow
  | negOverflow
deriving DecidableEq, Repr

/-- The text that `ParseIntError` displays for each kind. -/
def IntErrorKind.description : IntErrorKind → String
  | .empty => "cannot parse integer from empty string"
  | .invalidDigit => "invalid digit found in string"
  | .posOverflow => "number too large to fit in target type"
  | .negOverflow => "number too small to fit in target type"

/-- The digit loop of `from_str_radix` in radix 10, for a type whose values are `lo` to `hi`: each
character must be an ASCII digit, which a positive number adds to ten times the value so far and a
negative one takes from it; a value past the bound overflows. -/
def accumulate (positive : Bool) (lo hi acc : Int) : List Char → Except IntErrorKind Int
  | [] => .ok acc
  | c :: cs =>
    if c.isDigit then
      if positive then
        if acc * 10 + digitValue c ≤ hi then accumulate positive lo hi (acc * 10 + digitValue c) cs
        else .error .posOverflow
      else if lo ≤ acc * 10 - digitValue c then
        accumulate positive lo hi (acc * 10 - digitValue c) cs
      else .error .negOverflow
    else .error .invalidDigit

/-- `from_str` of an integer type whose values are `lo` to `hi`: an optional `+`, or a `-` when
the type is signed, then ASCII digits. A sign alone is an invalid digit. -/
def parseInt (signed : Bool) (lo hi : Int) (cs : List Char) : Except IntErrorKind Int :=
  match cs with
  | [] => .error .empty
  | ['+'] | ['-'] => .error .invalidDigit
  | '+' :: digits => accumulate true lo hi 0 digits
  | '-' :: digits => if signed then accumulate false lo hi 0 digits else accumulate true lo hi 0 cs
  | digits => accumulate true lo hi 0 digits

/-- `i64::from_str`. -/
def parseI64 (cs : List Char) : Except IntErrorKind Int :=
  parseInt true (-2 ^ 63) (2 ^ 63 - 1) cs

/-- `u32::from_str`. -/
def parseU32 (cs : List Char) : Except IntErrorKind Int :=
  parseInt false 0 (2 ^ 32 - 1) cs

section Parse

variable {lo hi : Int} {ds : List Char}

/-- A value read so far is at most the value of the digits read after it. -/
theorem le_ofDigitChars (acc : Nat) : acc ≤ Nat.ofDigitChars 10 ds acc := by
  rw [Nat.ofDigitChars_eq_ofDigitChars_zero]
  have := Nat.one_le_pow ds.length 10 (by decide)
  nlinarith [Nat.zero_le (Nat.ofDigitChars 10 ds 0)]

/-- Digits whose value is within the bound are read as that value: the value only grows along the
digits, so no prefix of them overflows. The induction is on the digits, from any value so far. -/
theorem accumulate_of_le (hds : ∀ c ∈ ds, c.isDigit = true) (acc : Nat)
    (hle : (Nat.ofDigitChars 10 ds acc : Int) ≤ hi) :
    accumulate true lo hi acc ds = .ok (Nat.ofDigitChars 10 ds acc) := by
  induction ds generalizing acc with
  | nil => rfl
  | cons c cs ih =>
    rw [Nat.ofDigitChars_cons] at hle ⊢
    have hc := hds c List.mem_cons_self
    have hstep : (acc : Int) * 10 + digitValue c = ((10 * acc + digitValue c : Nat) : Int) := by
      push_cast
      ring
    have hbound : (acc : Int) * 10 + digitValue c ≤ hi :=
      hstep ▸ le_trans (Int.ofNat_le.mpr (le_ofDigitChars _)) hle
    rw [accumulate, if_pos hc, if_pos rfl, if_pos hbound, hstep]
    exact ih (fun d hd => hds d (List.mem_cons_of_mem c hd)) _ hle

/-- Digits whose value is past the bound overflow, from a value so far within it. -/
theorem accumulate_of_lt (hds : ∀ c ∈ ds, c.isDigit = true) (acc : Nat) (hacc : (acc : Int) ≤ hi)
    (hlt : hi < Nat.ofDigitChars 10 ds acc) :
    accumulate true lo hi acc ds = .error .posOverflow := by
  induction ds generalizing acc with
  | nil => exact absurd hlt (not_lt.mpr hacc)
  | cons c cs ih =>
    rw [Nat.ofDigitChars_cons] at hlt
    have hc := hds c List.mem_cons_self
    have hstep : (acc : Int) * 10 + digitValue c = ((10 * acc + digitValue c : Nat) : Int) := by
      push_cast
      ring
    rw [accumulate, if_pos hc, if_pos rfl]
    split
    · next hbound =>
      rw [hstep]
      exact ih (fun d hd => hds d (List.mem_cons_of_mem c hd)) _ (hstep ▸ hbound) hlt
    · rfl

/-- `from_str` of ASCII digits: their value, or `PosOverflow` past the bound. -/
theorem accumulate_zero (hds : ∀ c ∈ ds, c.isDigit = true) (hhi : 0 ≤ hi) :
    accumulate true lo hi 0 ds =
      if (Nat.ofDigitChars 10 ds 0 : Int) ≤ hi then .ok (Nat.ofDigitChars 10 ds 0)
      else .error .posOverflow := by
  split
  · next hle => exact accumulate_of_le hds 0 hle
  · next hlt => exact accumulate_of_lt hds 0 hhi (not_le.mp hlt)

/-- `from_str` of ASCII digits goes straight to the digit loop: they start with no sign. -/
theorem parseInt_of_digits {signed : Bool} (hne : ds ≠ []) (hds : ∀ c ∈ ds, c.isDigit = true) :
    parseInt signed lo hi ds = accumulate true lo hi 0 ds := by
  obtain ⟨c, cs, rfl⟩ := List.exists_cons_of_ne_nil hne
  have hc := hds c List.mem_cons_self
  have hplus : c ≠ '+' := by
    rintro rfl
    exact absurd hc (by decide)
  have hminus : c ≠ '-' := by
    rintro rfl
    exact absurd hc (by decide)
  unfold parseInt
  split <;> simp_all

/-- An ASCII digit is worth less than ten. -/
theorem digitValue_lt_ten {c : Char} (h : c.isDigit = true) : digitValue c < 10 := by
  simp only [Char.isDigit, Bool.and_eq_true, decide_eq_true_eq, UInt32.le_iff_toNat_le] at h
  have h0 : '0'.val.toNat = 48 := rfl
  have h9 : '9'.val.toNat = 57 := rfl
  rw [h0, h9] at h
  unfold digitValue Char.toNat
  rw [h0]
  omega

/-- An ASCII digit takes one byte of UTF-8. -/
theorem utf8Size_of_isDigit {c : Char} (h : c.isDigit = true) : c.utf8Size = 1 := by
  have hle : c ≤ '9' := by
    simp only [Char.isDigit, Bool.and_eq_true, decide_eq_true_eq] at h
    exact h.2
  have hval : c.val ≤ 127 := by
    rw [Char.le_def] at hle
    exact UInt32.le_iff_toNat_le.mpr (by have := UInt32.le_iff_toNat_le.mp hle; simp at this ⊢; omega)
  simp [Char.utf8Size, hval]

/-- `k` ASCII digits are worth less than `10 ^ k`. -/
theorem ofDigitChars_lt_pow (hds : ∀ c ∈ ds, c.isDigit = true) :
    Nat.ofDigitChars 10 ds 0 < 10 ^ ds.length := by
  induction ds with
  | nil => exact Nat.one_pos
  | cons c cs ih =>
    rw [ofDigitChars_cons_zero, List.length_cons, Nat.pow_succ]
    have hc := digitValue_lt_ten (hds c List.mem_cons_self)
    have hrest := ih fun d hd => hds d (List.mem_cons_of_mem c hd)
    -- the leading digit takes at most nine of the ten places in front of the rest
    have : digitValue c * 10 ^ cs.length + 10 ^ cs.length ≤ 10 ^ cs.length * 10 := by
      nlinarith
    omega

end Parse

/-- `{:0}`: the decimal digits, with no zeros in front. -/
theorem formatPadded_zero (n : Nat) : formatPadded 0 n = Nat.toDigits 10 n := by
  rw [formatPadded, Nat.zero_sub, List.replicate_zero, List.nil_append]

/-- Digits followed by `width` more: ten to the `width` times the first, plus the last. -/
theorem ofDigitChars_append_formatPadded (l : List Char) {width n : Nat} (hw : 0 < width)
    (h : n < 10 ^ width) :
    Nat.ofDigitChars 10 (l ++ formatPadded width n) 0 = Nat.ofDigitChars 10 l 0 * 10 ^ width + n := by
  rw [Nat.ofDigitChars_append, Nat.ofDigitChars_eq_ofDigitChars_zero, ofDigitChars_formatPadded,
    length_formatPadded hw h, Nat.mul_comm]

end Decimal
