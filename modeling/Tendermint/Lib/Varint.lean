import Mathlib

/-!
# Base-128 varints

The varint of protocol buffers: a number in groups of seven bits, least significant group first,
one group a byte, with the high bit set on every byte but the last. A number below `2 ^ 64` takes
at most ten bytes; the decoder reads at most ten, refuses a tenth byte that would overflow 64 bits,
and refuses a buffer that ends before the last byte.

Decoding what was encoded gives the number back and leaves the bytes after it
(`decode_encode_append`); a proper prefix of an encoding has the high bit set on each of its
bytes, so the decoder runs out of bytes in it and refuses it (`decode_of_prefix`).
-/

namespace Varint

/-- At most `fuel` bytes of the encoding of `value`. -/
def encodeLoop : Nat → Nat → List UInt8
  | 0, _ => []
  | fuel + 1, value =>
    if value < 128 then [UInt8.ofNat value]
    else UInt8.ofNat (value % 128 + 128) :: encodeLoop fuel (value / 128)

/-- `encode_varint`. -/
def encode (value : UInt64) : List UInt8 := encodeLoop 10 value.toNat

/-- At most `fuel` more bytes of a varint, the `count`-th next, after the groups that make
`value`. -/
def decodeLoop : Nat → Nat → Nat → List UInt8 → Option (Nat × List UInt8)
  | 0, _, _, _ => none
  | _ + 1, _, _, [] => none
  | fuel + 1, count, value, byte :: rest =>
    let value := value + byte.toNat % 128 * 128 ^ count
    if byte.toNat < 128 then
      -- the tenth byte may only carry the top bit of a 64-bit number
      if count = 9 ∧ 2 ≤ byte.toNat then none else some (value, rest)
    else decodeLoop fuel (count + 1) value rest

/-- `decode_varint`: the number at the start of the buffer and the bytes after it, or `none` for
its error, `invalid varint`. -/
def decode (buf : List UInt8) : Option (UInt64 × List UInt8) :=
  (decodeLoop 10 0 0 buf).map fun r => (UInt64.ofNat r.1, r.2)

theorem toNat_ofNat_of_lt {n : Nat} (h : n < 256) : (UInt8.ofNat n).toNat = n := by
  rw [UInt8.toNat_ofNat']
  omega

theorem length_encodeLoop_le : ∀ fuel value, (encodeLoop fuel value).length ≤ fuel
  | 0, _ => Nat.le_refl _
  | fuel + 1, value => by
    unfold encodeLoop
    split
    · simp
    · simpa using length_encodeLoop_le fuel (value / 128)

theorem length_encode_le (value : UInt64) : (encode value).length ≤ 10 :=
  length_encodeLoop_le 10 _

/-- The decoder reads back the groups of the encoder, from the `count`-th on. -/
theorem decodeLoop_encodeLoop (rest : List UInt8) :
    ∀ fuel count acc value, value < 128 ^ (fuel + 1) → value * 128 ^ count < 2 ^ 64 →
      decodeLoop (fuel + 1) count acc (encodeLoop (fuel + 1) value ++ rest) =
        some (acc + value * 128 ^ count, rest)
  | fuel, count, acc, value, hfuel, hfit => by
    by_cases hv : value < 128
    · -- the last group
      have hlast : ¬(count = 9 ∧ 2 ≤ value) := by
        rintro ⟨rfl, h2⟩
        have : 2 * 128 ^ 9 ≤ value * 128 ^ 9 := Nat.mul_le_mul_right _ h2
        norm_num at this hfit
        omega
      simp [encodeLoop, decodeLoop, hv, toNat_ofNat_of_lt (by omega : value < 256), hlast,
        Nat.mod_eq_of_lt hv]
    · -- a group with more after it: the encoder has fuel for them
      cases fuel with
      | zero => simp at hfuel; omega
      | succ fuel =>
        have hbyte := toNat_ofNat_of_lt (by omega : value % 128 + 128 < 256)
        have hsplit : value = value % 128 + 128 * (value / 128) := (Nat.mod_add_div value 128).symm
        have ih := decodeLoop_encodeLoop rest fuel (count + 1) (acc + value % 128 * 128 ^ count)
          (value / 128) (by rw [pow_succ] at hfuel; omega)
          (by
            calc value / 128 * 128 ^ (count + 1) = 128 * (value / 128) * 128 ^ count := by ring
              _ ≤ value * 128 ^ count := Nat.mul_le_mul_right _ (by omega)
              _ < 2 ^ 64 := hfit)
        rw [encodeLoop, if_neg hv, List.cons_append]
        simp only [decodeLoop, hbyte, show ¬(value % 128 + 128 < 128) by omega, if_false,
          Nat.add_mod_right, Nat.mod_mod]
        rw [ih]
        congr 2
        calc acc + value % 128 * 128 ^ count + value / 128 * 128 ^ (count + 1)
            = acc + (value % 128 + 128 * (value / 128)) * 128 ^ count := by ring
          _ = acc + value * 128 ^ count := by rw [← hsplit]

/-- Decoding an encoding gives its number and leaves the bytes after it. -/
theorem decode_encode_append (value : UInt64) (rest : List UInt8) :
    decode (encode value ++ rest) = some (value, rest) := by
  have hlt := value.toNat_lt
  rw [decode, encode, decodeLoop_encodeLoop rest 9 0 0 value.toNat (by norm_num; omega)
    (by norm_num; omega)]
  simp

/-- Bytes that all have the high bit set end before a varint does. -/
theorem decodeLoop_of_high : ∀ (bytes : List UInt8) fuel count acc,
    (∀ b ∈ bytes, 128 ≤ b.toNat) → decodeLoop fuel count acc bytes = none
  | [], 0, _, _, _ => rfl
  | [], _ + 1, _, _, _ => rfl
  | _ :: _, 0, _, _, _ => rfl
  | b :: bytes, fuel + 1, count, acc, h => by
    have hb : ¬b.toNat < 128 := by have := h b List.mem_cons_self; omega
    simp only [decodeLoop, hb, if_false]
    exact decodeLoop_of_high bytes fuel _ _ fun b' hb' => h b' (List.mem_cons_of_mem _ hb')

/-- Every byte of a proper prefix of an encoding has the high bit set. -/
theorem high_of_prefix_encodeLoop : ∀ fuel value (pre : List UInt8),
    pre <+: encodeLoop fuel value → pre ≠ encodeLoop fuel value → ∀ b ∈ pre, 128 ≤ b.toNat
  | 0, _, pre, hp, hne => by
    simp only [encodeLoop] at hp hne
    exact absurd (List.prefix_nil.mp hp) hne
  | fuel + 1, value, pre, hp, hne => by
    by_cases hv : value < 128
    · -- a one-byte encoding has only the empty proper prefix
      simp only [encodeLoop, hv, if_true] at hp hne
      rcases List.prefix_cons_iff.mp hp with rfl | ⟨t, rfl, ht⟩
      · intro b hb
        cases hb
      · exact absurd (by rw [List.prefix_nil.mp ht]) hne
    · simp only [encodeLoop, hv, if_false] at hp hne
      rcases List.prefix_cons_iff.mp hp with rfl | ⟨t, rfl, ht⟩
      · intro b hb
        cases hb
      · intro b hb
        rcases List.mem_cons.mp hb with rfl | hb
        · rw [toNat_ofNat_of_lt (by omega)]
          omega
        · exact high_of_prefix_encodeLoop fuel (value / 128) t ht
            (fun h => hne (by rw [h])) b hb

/-- No proper prefix of an encoding decodes. -/
theorem decode_of_prefix {value : UInt64} {pre : List UInt8} (hp : pre <+: encode value)
    (hne : pre ≠ encode value) : decode pre = none := by
  rw [decode, decodeLoop_of_high pre 10 0 0 (high_of_prefix_encodeLoop 10 _ pre hp hne)]
  rfl

end Varint
