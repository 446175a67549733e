import Mathlib

/-!
# Rust evaluation outcomes

A Rust function either returns or panics. A function that may panic is modelled in `Option`, with
`none` the panic; a function that returns a `Result<T, E>` and may also panic is modelled in
`ExceptT E Option`, so that `some (.ok t)`, `some (.error e)` and `none` are the three outcomes.

Arithmetic overflow of a `u64` is a panic, as it is in a build with overflow checks (the semantics
the Rust reference prescribes whenever `debug_assert!` is enabled, and the one verification tools
for Rust adopt): the checked operations below return the exact result when it is representable and
`none` otherwise. Each operation comes with one `_eq_some` lemma that says this as `Nat` arithmetic,
which is the only fact later proofs use about it.
-/

namespace Rust

/-- `a + b` on `u64`, panicking on overflow. -/
def checkedAdd (a b : UInt64) : Option UInt64 :=
  if h : a.toNat + b.toNat < UInt64.size then some (UInt64.ofNatLT _ h) else none

/-- `a * b` on `u64`, panicking on overflow. -/
def checkedMul (a b : UInt64) : Option UInt64 :=
  if h : a.toNat * b.toNat < UInt64.size then some (UInt64.ofNatLT _ h) else none

/-- `a - b` on `u64`, panicking on underflow. -/
def checkedSub (a b : UInt64) : Option UInt64 :=
  if b.toNat ≤ a.toNat then
    some (UInt64.ofNatLT (a.toNat - b.toNat) (Nat.lt_of_le_of_lt (Nat.sub_le _ _) a.toNat_lt))
  else none

/-- `usize::next_power_of_two`: the least power of two that is at least `n` (`1` for `0`). -/
def nextPowerOfTwo (n : Nat) : Nat :=
  if n ≤ 1 then 1 else 2 ^ (Nat.log2 (n - 1) + 1)

/-- Half of `next_power_of_two` of a length `n ≥ 2` is the largest power of two below `n`. -/
theorem nextPowerOfTwo_half {n : Nat} (hn : 2 ≤ n) :
    nextPowerOfTwo n / 2 = 2 ^ Nat.log2 (n - 1) := by
  rw [nextPowerOfTwo, if_neg (by omega), Nat.pow_succ, Nat.mul_div_cancel _ (by decide)]

/-- Half the next power of two of `n` is below `n`, from 2 on. -/
theorem nextPowerOfTwo_half_lt {n : Nat} (hn : 2 ≤ n) : nextPowerOfTwo n / 2 < n := by
  rw [nextPowerOfTwo_half hn]
  have := Nat.log2_self_le (n := n - 1) (by omega)
  omega

/-- Half the next power of two of `n` is positive, from 2 on. -/
theorem nextPowerOfTwo_half_pos {n : Nat} (hn : 2 ≤ n) : 0 < nextPowerOfTwo n / 2 := by
  rw [nextPowerOfTwo_half hn]
  exact Nat.two_pow_pos _

/-- `expect`: a panic unless the condition holds. -/
def assert (b : Bool) : Option Unit :=
  if b then some () else none

/-- A `u64` built from `n` under a guard that bounds it: the shape of every checked operation. -/
theorem guarded_eq_some {P : Prop} [Decidable P] {n : Nat} (hn : P → n < UInt64.size)
    {c : UInt64} :
    (if h : P then some (UInt64.ofNatLT n (hn h)) else none) = some c ↔ P ∧ c.toNat = n := by
  split
  · next h =>
    refine ⟨fun e => ?_, fun ⟨_, e⟩ => ?_⟩
    · cases e
      exact ⟨h, UInt64.toNat_ofNatLT⟩
    · rw [Option.some_inj, ← UInt64.toNat_inj, e, UInt64.toNat_ofNatLT]
  · next h =>
    simp only [reduceCtorEq, false_iff, not_and]
    intro h'
    exact absurd h' h

/-- A guarded conversion fails exactly when its guard does. -/
theorem guarded_eq_none {P : Prop} [Decidable P] {n : Nat} (hn : P → n < UInt64.size) :
    (if h : P then some (UInt64.ofNatLT n (hn h)) else none) = none ↔ ¬P := by
  split
  · next h => exact iff_of_false (Option.some_ne_none _) (not_not.mpr h)
  · next h => exact iff_of_true rfl h

/-- A checked sum is the sum when it fits 64 bits. -/
theorem checkedAdd_eq_some {a b c : UInt64} :
    checkedAdd a b = some c ↔ a.toNat + b.toNat < 2 ^ 64 ∧ c.toNat = a.toNat + b.toNat :=
  guarded_eq_some fun h => h

/-- A checked sum panics exactly when it overflows 64 bits. -/
theorem checkedAdd_eq_none {a b : UInt64} :
    checkedAdd a b = none ↔ 2 ^ 64 ≤ a.toNat + b.toNat :=
  (guarded_eq_none fun h => h).trans Nat.not_lt

/-- A checked product is the product when it fits 64 bits. -/
theorem checkedMul_eq_some {a b c : UInt64} :
    checkedMul a b = some c ↔ a.toNat * b.toNat < 2 ^ 64 ∧ c.toNat = a.toNat * b.toNat :=
  guarded_eq_some fun h => h

/-- A checked product panics exactly when it overflows 64 bits. -/
theorem checkedMul_eq_none {a b : UInt64} :
    checkedMul a b = none ↔ 2 ^ 64 ≤ a.toNat * b.toNat :=
  (guarded_eq_none fun h => h).trans Nat.not_lt

/-- A checked difference is the difference when it does not go below zero. -/
theorem checkedSub_eq_some {a b c : UInt64} :
    checkedSub a b = some c ↔ b.toNat ≤ a.toNat ∧ c.toNat = a.toNat - b.toNat := by
  -- the guard does not bound the result, which is below `a` whenever it is built
  rw [checkedSub, ← dite_eq_ite]
  exact guarded_eq_some fun _ => Nat.lt_of_le_of_lt (Nat.sub_le _ _) a.toNat_lt

/-- `a + b` on `i64`, panicking on overflow. -/
def checkedAddI64 (a b : Int) : Option Int :=
  if -2 ^ 63 ≤ a + b ∧ a + b < 2 ^ 63 then some (a + b) else none

/-- `a - b` on `i64`, panicking on overflow. -/
def checkedSubI64 (a b : Int) : Option Int :=
  if -2 ^ 63 ≤ a - b ∧ a - b < 2 ^ 63 then some (a - b) else none

@[simp] theorem checkedAddI64_eq_some {a b c : Int} :
    checkedAddI64 a b = some c ↔ (-2 ^ 63 ≤ a + b ∧ a + b < 2 ^ 63) ∧ c = a + b := by
  rw [checkedAddI64, Option.ite_none_right_eq_some, Option.some.injEq]
  exact and_congr_right fun _ => eq_comm

@[simp] theorem checkedAddI64_eq_none {a b : Int} :
    checkedAddI64 a b = none ↔ ¬(-2 ^ 63 ≤ a + b ∧ a + b < 2 ^ 63) := by
  rw [checkedAddI64, ite_eq_right_iff]
  exact ⟨fun h hp => Option.some_ne_none _ (h hp), fun h hp => absurd hp h⟩

@[simp] theorem checkedSubI64_eq_some {a b c : Int} :
    checkedSubI64 a b = some c ↔ (-2 ^ 63 ≤ a - b ∧ a - b < 2 ^ 63) ∧ c = a - b := by
  rw [checkedSubI64, Option.ite_none_right_eq_some, Option.some.injEq]
  exact and_congr_right fun _ => eq_comm

@[simp] theorem checkedSubI64_eq_none {a b : Int} :
    checkedSubI64 a b = none ↔ ¬(-2 ^ 63 ≤ a - b ∧ a - b < 2 ^ 63) := by
  rw [checkedSubI64, ite_eq_right_iff]
  exact ⟨fun h hp => Option.some_ne_none _ (h hp), fun h hp => absurd hp h⟩

/-- `n as i32` for an unsigned `n`: its low 32 bits, read in two's complement. -/
def asI32 (n : Nat) : Int :=
  Int.bmod n (2 ^ 32)

/-- The cast keeps every count below `i32::MAX + 1`. -/
theorem asI32_of_lt {n : Nat} (hn : n < 2 ^ 31) : asI32 n = n := by
  apply Int.bmod_eq_of_le <;> omega

/-- A count of `2 ^ 31` wraps round to `i32::MIN`. -/
example : asI32 (2 ^ 31) = -2 ^ 31 := by decide

/-- `x as uN` for a signed `x`: its low `w` bits, read as unsigned. -/
def castUnsigned (w : Nat) (x : Int) : Nat :=
  (x % 2 ^ w).toNat

/-- `x as u64`. -/
def asU64 (x : Int) : Nat := castUnsigned 64 x

/-- `x as u32`. -/
def asU32 (x : Int) : Nat := castUnsigned 32 x

/-- The cast keeps every value it can hold. -/
theorem castUnsigned_of_lt {w : Nat} {x : Int} (h0 : 0 ≤ x) (h : x < 2 ^ w) :
    castUnsigned w x = x.toNat := by
  rw [castUnsigned, Int.emod_eq_of_lt h0 h]

@[simp] theorem assert_eq_some {b : Bool} {u : Unit} : assert b = some u ↔ b = true := by
  cases b <;> simp [assert]

@[simp] theorem assert_eq_none {b : Bool} : assert b = none ↔ b = false := by
  cases b <;> simp [assert]

/-! ## Sums by folds -/

section Folds

variable {α : Type}

/-- `fold(acc, |acc, x| acc.saturating_add(f(x)))` with the bound `bound` on the accumulator is
the exact sum, cut at the bound. -/
theorem foldl_saturatingAdd (f : α → Nat) (bound : Nat) :
    ∀ (l : List α) (acc : Nat), acc ≤ bound →
      l.foldl (fun acc x => min (acc + f x) bound) acc = min (acc + (l.map f).sum) bound
  | [], acc, h => by simp [Nat.min_eq_left h]
  | x :: l, acc, _ => by
    rw [List.foldl_cons, foldl_saturatingAdd f bound l _ (Nat.min_le_right _ _), List.map_cons,
      List.sum_cons]
    omega

/-- `fold(acc, |total, x| total + f(x))` on `u64` does not panic while the exact sum stays below
`2 ^ 64`, and returns it. -/
theorem foldlM_checkedAdd (f : α → UInt64) :
    ∀ (l : List α) (acc : UInt64), acc.toNat + (l.map fun x => (f x).toNat).sum < 2 ^ 64 →
      ∃ total, l.foldlM (fun total x => checkedAdd total (f x)) acc = some total ∧
        total.toNat = acc.toNat + (l.map fun x => (f x).toNat).sum
  | [], acc, _ => ⟨acc, rfl, by simp⟩
  | x :: l, acc, h => by
    simp only [List.map_cons, List.sum_cons] at h
    -- the first addition stays below the bound, and so does the rest of the sum after it
    have hx : acc.toNat + (f x).toNat < 2 ^ 64 := by omega
    have hacc : checkedAdd acc (f x) = some (UInt64.ofNatLT _ hx) :=
      checkedAdd_eq_some.mpr ⟨hx, UInt64.toNat_ofNatLT⟩
    obtain ⟨total, hrest, htotal⟩ := foldlM_checkedAdd f l (UInt64.ofNatLT _ hx)
      (by rw [UInt64.toNat_ofNatLT]; omega)
    refine ⟨total, ?_, ?_⟩
    · rw [List.foldlM_cons, hacc]
      exact hrest
    · rw [htotal, UInt64.toNat_ofNatLT, List.map_cons, List.sum_cons]
      omega

/-- What a fold of `+` on `u64` that does not panic returns: the exact sum. -/
theorem foldlM_checkedAdd_eq_some (f : α → UInt64) :
    ∀ (l : List α) (acc total : UInt64),
      l.foldlM (fun total x => checkedAdd total (f x)) acc = some total →
        total.toNat = acc.toNat + (l.map fun x => (f x).toNat).sum
  | [], acc, total, h => by
    rw [List.foldlM_nil, Option.pure_def, Option.some.injEq] at h
    rw [h, List.map_nil, List.sum_nil, Nat.add_zero]
  | x :: l, acc, total, h => by
    rw [List.foldlM_cons] at h
    obtain ⟨acc', hacc, h⟩ := Option.bind_eq_some_iff.mp h
    rw [foldlM_checkedAdd_eq_some f l acc' total h, (checkedAdd_eq_some.mp hacc).2, List.map_cons,
      List.sum_cons]
    omega

end Folds

/-! ## Little-endian words -/

/-- `(n as u32).to_le_bytes()`. -/
def u32ToLeBytes (n : Nat) : List UInt8 :=
  [n, n / 2 ^ 8, n / 2 ^ 16, n / 2 ^ 24].map UInt8.ofNat

/-- `u32::from_le_bytes` of the first four bytes. -/
def u32FromLeBytes (bytes : List UInt8) : Nat :=
  (bytes.take 4).foldr (fun b acc => b.toNat + 2 ^ 8 * acc) 0

@[simp] theorem length_u32ToLeBytes (n : Nat) : (u32ToLeBytes n).length = 4 := rfl

/-- A word below `2 ^ 32` is read back from its bytes, whatever follows them. -/
theorem u32FromLeBytes_append {n : Nat} (hn : n < 2 ^ 32) (rest : List UInt8) :
    u32FromLeBytes (u32ToLeBytes n ++ rest) = n := by
  simp only [u32FromLeBytes, u32ToLeBytes, List.map_cons, List.map_nil, List.cons_append,
    List.nil_append, List.take_succ_cons, List.take_zero, List.foldr_cons, List.foldr_nil,
    UInt8.toNat_ofNat']
  omega

/-- `to_le_bytes` of a `width`-byte unsigned integer: its least significant byte, then the bytes
of the rest. -/
def toLeBytes : Nat → Nat → List UInt8
  | 0, _ => []
  | width + 1, n => UInt8.ofNat n :: toLeBytes width (n / 256)

/-- `from_le_bytes`: the number whose bytes these are, the least significant first. -/
def fromLeBytes (bytes : List UInt8) : Nat :=
  bytes.foldr (fun b acc => b.toNat + 256 * acc) 0

/-- `u64::to_le_bytes`. -/
def u64ToLeBytes (n : Nat) : List UInt8 := toLeBytes 8 n

@[simp] theorem length_toLeBytes : ∀ width n, (toLeBytes width n).length = width
  | 0, _ => rfl
  | width + 1, n => by simp [toLeBytes, length_toLeBytes width]

/-- A number below `256 ^ width` is read back from its `width` bytes. -/
theorem fromLeBytes_toLeBytes :
    ∀ {width n : Nat}, n < 256 ^ width → fromLeBytes (toLeBytes width n) = n
  | 0, n, h => by
    rw [Nat.pow_zero, Nat.lt_one_iff] at h
    subst h
    rfl
  | width + 1, n, h => by
    have hrest : fromLeBytes (toLeBytes width (n / 256)) = n / 256 :=
      fromLeBytes_toLeBytes (by rw [Nat.pow_succ] at h; omega)
    -- the least significant byte, then the number the other bytes make
    change (UInt8.ofNat n).toNat + 256 * fromLeBytes (toLeBytes width (n / 256)) = n
    rw [hrest, UInt8.toNat_ofNat']
    omega

/-! ## Big-endian words

Unsigned integers stored most significant byte first, as `to_be_bytes` gives them: compared
byte by byte, as a byte-ordered store compares keys, they are in the order of the numbers. -/

/-- `to_be_bytes` of a `width`-byte unsigned integer: its most significant byte, then the
bytes of the rest. -/
def toBeBytes : Nat → Nat → List UInt8
  | 0, _ => []
  | width + 1, n => UInt8.ofNat (n / 256 ^ width) :: toBeBytes width (n % 256 ^ width)

/-- `u64::to_be_bytes`. -/
def u64ToBeBytes (n : Nat) : List UInt8 := toBeBytes 8 n

/-- Numbers compare as their quotients by `d`, and then as their remainders. -/
theorem lt_iff_div_lt_or {d n m : Nat} (hd : 0 < d) :
    n < m ↔ n / d < m / d ∨ n / d = m / d ∧ n % d < m % d := by
  have hn := Nat.div_add_mod n d
  have hm := Nat.div_add_mod m d
  have hrn := Nat.mod_lt n hd
  have hrm := Nat.mod_lt m hd
  constructor
  · intro h
    rcases Nat.lt_trichotomy (n / d) (m / d) with hq | hq | hq
    · exact .inl hq
    · refine .inr ⟨hq, ?_⟩
      rw [hq] at hn
      omega
    · -- a greater quotient would make `n` at least `m`
      have : d * (m / d + 1) ≤ d * (n / d) := Nat.mul_le_mul_left d hq
      rw [Nat.mul_succ] at this
      omega
  · rintro (hq | ⟨hq, hr⟩)
    · have : d * (n / d + 1) ≤ d * (m / d) := Nat.mul_le_mul_left d hq
      rw [Nat.mul_succ] at this
      omega
    · rw [hq] at hn
      omega

/-- The bytes of numbers below `256 ^ width`, compared lexicographically, compare as the
numbers. -/
theorem lex_toBeBytes_iff :
    ∀ {width n m : Nat}, n < 256 ^ width → m < 256 ^ width →
      (List.Lex (· < ·) ((toBeBytes width n).map UInt8.toNat)
        ((toBeBytes width m).map UInt8.toNat) ↔ n < m)
  | 0, n, m, hn, hm => by
    simp only [Nat.pow_zero, Nat.lt_one_iff] at hn hm
    subst hn hm
    simp [toBeBytes]
  | width + 1, n, m, hn, hm => by
    have hd : 0 < 256 ^ width := Nat.pow_pos (by decide)
    -- the leading byte is the whole quotient, which is below 256
    have hq : ∀ k, k < 256 ^ (width + 1) → (UInt8.ofNat (k / 256 ^ width)).toNat =
        k / 256 ^ width := by
      intro k hk
      rw [UInt8.toNat_ofNat', Nat.mod_eq_of_lt]
      rw [Nat.div_lt_iff_lt_mul hd, ← Nat.pow_succ']
      exact hk
    simp only [toBeBytes, List.map_cons, List.cons_lex_cons_iff, hq n hn, hq m hm,
      lex_toBeBytes_iff (Nat.mod_lt n hd) (Nat.mod_lt m hd)]
    exact (lt_iff_div_lt_or hd).symm

/-! ## Decimal numerals

`u64::from_str` and `i64::from_str` on the texts a grammar hands them: digits, and a minus sign
followed by digits. Each fails where the value does not fit the type. -/

/-- The value of a string of decimal digits. -/
def decimalValue (digits : List Char) : Nat :=
  digits.foldl (fun n c => 10 * n + (c.toNat - 48)) 0

/-- `u64::from_str` on a string of digits. -/
def u64FromStr (digits : List Char) : Option UInt64 :=
  if decimalValue digits < 2 ^ 64 then some (UInt64.ofNat (decimalValue digits)) else none

/-- `i64::from_str` on a minus sign followed by digits. -/
def i64FromStr : List Char → Option Int64
  | '-' :: digits =>
    if decimalValue digits ≤ 2 ^ 63 then some (Int64.ofInt (-decimalValue digits)) else none
  | _ => none

/-! ## `Result` under panics

Peeling a computation of `ExceptT ε Option` apart: a bind that returned `ok` ran both halves to
`ok`, a bind that returned an error either failed in its first half or ran the second half to that
error. -/

variable {ε α β : Type}

/-- A bind succeeds exactly when both its steps do. -/
theorem run_bind_eq_ok {x : ExceptT ε Option α} {g : α → ExceptT ε Option β} {r : β} :
    (x >>= g).run = some (.ok r) ↔ ∃ a, x.run = some (.ok a) ∧ (g a).run = some (.ok r) := by
  simp only [ExceptT.run_bind]
  rcases x with _ | _ | a <;> simp [ExceptT.run]

/-- A bind fails with the error of its first step, or of its second after the first succeeded. -/
theorem run_bind_eq_error {x : ExceptT ε Option α} {g : α → ExceptT ε Option β} {e : ε} :
    (x >>= g).run = some (.error e) ↔
      x.run = some (.error e) ∨ ∃ a, x.run = some (.ok a) ∧ (g a).run = some (.error e) := by
  simp only [ExceptT.run_bind]
  rcases x with _ | _ | a <;> simp [ExceptT.run]

/-- A bind whose first step succeeds runs its second step on the value. -/
theorem run_bind_of_ok {x : ExceptT ε Option α} {g : α → ExceptT ε Option β} {a : α}
    (h : x.run = some (.ok a)) : (x >>= g).run = (g a).run := by
  simp only [ExceptT.run_bind, h]
  rfl

/-- A lifted option succeeds exactly with its value. -/
theorem run_lift_eq_ok {o : Option α} {a : α} :
    (ExceptT.lift o : ExceptT ε Option α).run = some (.ok a) ↔ o = some a := by
  cases o <;> simp

/-- A `Result` computed without a panic, in a computation that may panic. -/
def result (x : Except ε α) : ExceptT ε Option α := ExceptT.mk (some x)

@[simp] theorem run_result (x : Except ε α) : (result x).run = some x := rfl

/-- A bind on a result that is `Ok` runs its second step on the value. -/
theorem run_result_ok_bind (a : α) (g : α → ExceptT ε Option β) :
    (result (.ok a) >>= g).run = (g a).run := rfl

/-- An `unwrap` that ends a computation: the panic, or the result of what was unwrapped. -/
theorem run_lift_bind_pure (o : Option α) (f : α → β) :
    (ExceptT.lift o >>= fun a => pure (f a) : ExceptT ε Option β).run =
      o.map fun a => .ok (f a) := by
  cases o with
  | none => rfl
  | some a => rfl

/-- A bind whose first step panics panics. -/
theorem run_bind_of_none {x : ExceptT ε Option α} {g : α → ExceptT ε Option β}
    (h : x.run = none) : (x >>= g).run = none := by
  simp only [ExceptT.run_bind, h]
  rfl

/-- A bind whose first step fails fails with its error. -/
theorem run_bind_of_error {x : ExceptT ε Option α} {g : α → ExceptT ε Option β} {e : ε}
    (h : x.run = some (.error e)) : (x >>= g).run = some (.error e) := by
  simp only [ExceptT.run_bind, h]
  rfl

/-- A bind does not panic when its first half does not, and its second half does not on what the
first half returns. -/
theorem run_bind_ne_none {x : ExceptT ε Option α} {g : α → ExceptT ε Option β}
    (hx : x.run ≠ none) (hg : ∀ a, x.run = some (.ok a) → (g a).run ≠ none) :
    (x >>= g).run ≠ none := by
  rcases hr : x.run with _ | _ | a
  · exact absurd hr hx
  · rw [run_bind_of_error hr]
    exact Option.some_ne_none _
  · rw [run_bind_of_ok hr]
    exact hg a hr

/-- A bind does not fail with an error that neither of its halves fails with. -/
theorem run_bind_ne_error {x : ExceptT ε Option α} {g : α → ExceptT ε Option β} {e : ε}
    (hx : x.run ≠ some (.error e)) (hg : ∀ a, x.run = some (.ok a) → (g a).run ≠ some (.error e)) :
    (x >>= g).run ≠ some (.error e) := by
  intro h
  rcases run_bind_eq_error.mp h with h | ⟨a, ha, h⟩
  · exact hx h
  · exact hg a ha h

/-- A lifted option that holds a value does not panic. -/
theorem run_lift_ne_none {o : Option α} (h : o ≠ none) :
    (ExceptT.lift o : ExceptT ε Option α).run ≠ none := by
  obtain ⟨a, rfl⟩ := Option.ne_none_iff_exists'.mp h
  exact Option.some_ne_none _

/-- A computation whose one panic is an unwrap after a `?` on a `Result`: it panics exactly when
the `Result` is `ok` and what is unwrapped on its value is `none`. -/
theorem run_result_lift_eq_none_iff {γ : Type} (x : Except ε α) (o : α → Option β)
    {g : β → ExceptT ε Option γ} (hg : ∀ b, (g b).run ≠ none) :
    (result x >>= fun a => ExceptT.lift (o a) >>= g).run = none ↔ ∃ a, x = .ok a ∧ o a = none := by
  cases x with
  | error e =>
    -- the error is returned, not a panic
    rw [run_bind_of_error (run_result (.error e))]
    simp
  | ok a =>
    rw [run_result_ok_bind]
    cases ho : o a with
    | none => exact ⟨fun _ => ⟨a, rfl, ho⟩, fun _ => run_bind_of_none rfl⟩
    | some b =>
      rw [run_bind_of_ok (run_lift_eq_ok.mpr rfl)]
      simpa [ho] using hg b

/-! ## The `?` operator on `Result` without panics -/

@[simp] theorem ok_bind (a : α) (g : α → Except ε β) : (Except.ok a >>= g) = g a := rfl

@[simp] theorem error_bind (e : ε) (g : α → Except ε β) : (Except.error e >>= g) = .error e := rfl

@[simp] theorem pure_eq_ok (a : α) : (pure a : Except ε α) = .ok a := rfl

@[simp] theorem map_ok (f : α → β) (a : α) : (f <$> (Except.ok a : Except ε α)) = .ok (f a) := rfl

@[simp] theorem throw_eq_error (e : ε) : (throw e : Except ε α) = .error e := rfl

/-- `Option::ok_or(err)` (and `ok_or_else`). -/
def okOr (o : Option α) (err : ε) : Except ε α :=
  match o with
  | none => .error err
  | some a => .ok a

@[simp] theorem okOr_some (a : α) (err : ε) : okOr (some a) err = .ok a := rfl

@[simp] theorem okOr_none (err : ε) : okOr (none : Option α) err = .error err := rfl

/-- `x?` followed by the rest succeeds exactly when both do. -/
theorem bind_eq_ok {x : Except ε α} {g : α → Except ε β} {b : β} :
    (x >>= g) = .ok b ↔ ∃ a, x = .ok a ∧ g a = .ok b := by
  cases x <;> simp

/-- A loop of checks passes exactly when each check passes. -/
theorem forM_eq_ok {xs : List α} {g : α → Except ε Unit} :
    forM xs g = .ok () ↔ ∀ x ∈ xs, g x = .ok () := by
  induction xs with
  | nil => simp
  | cons x xs ih =>
    simp only [List.forM_cons, List.forall_mem_cons, ← ih]
    cases g x <;> simp

/-- `if cond { Ok(()) } else { Err(err) }`, the shape of a check. -/
def ensure (cond : Prop) [Decidable cond] (err : ε) : Except ε Unit :=
  if cond then .ok () else .error err

@[simp] theorem ensure_eq_ok {c : Prop} [Decidable c] {e : ε} : ensure c e = .ok () ↔ c := by
  unfold ensure
  split <;> simp [*]

@[simp] theorem ensure_eq_error {c : Prop} [Decidable c] {e e' : ε} :
    ensure c e = .error e' ↔ ¬ c ∧ e = e' := by
  unfold ensure
  split <;> simp [*]

/-- A loop of checks fails with the error of one of its checks. -/
theorem forM_eq_error {xs : List α} {g : α → Except ε Unit} {e : ε} (h : forM xs g = .error e) :
    ∃ x ∈ xs, g x = .error e := by
  induction xs with
  | nil => cases h
  | cons x xs ih =>
    rw [List.forM_cons] at h
    rcases hx : g x with e' | ⟨⟩
    · rw [hx, error_bind] at h
      exact ⟨x, List.mem_cons_self, h ▸ hx⟩
    · rw [hx, ok_bind] at h
      obtain ⟨y, hy, hgy⟩ := ih h
      exact ⟨y, List.mem_cons_of_mem _ hy, hgy⟩

/-- `collect::<Result<Vec<_>, _>>()` of a conversion over converted values: when each comes back,
the list does. -/
theorem mapM_map_of_forall {f : β → Except ε α} {g : α → β} {xs : List α}
    (h : ∀ x ∈ xs, f (g x) = .ok x) : (xs.map g).mapM f = .ok xs := by
  induction xs with
  | nil => rfl
  | cons x xs ih =>
    rw [List.map_cons, List.mapM_cons, h x List.mem_cons_self, ok_bind,
      ih fun y hy => h y (List.mem_cons_of_mem x hy)]
    rfl

/-- `map(TryInto::try_into).transpose()` of a converted optional value. -/
theorem optionMapM_map_of_forall {f : β → Except ε α} {g : α → β} {o : Option α}
    (h : ∀ x ∈ o, f (g x) = .ok x) : (o.map g).mapM f = .ok o := by
  cases o with
  | none => rfl
  | some x =>
    rw [Option.map_some, Option.mapM_some, h x rfl]
    rfl

/-- `unwrap_or_default` does not see an `Option` from which the default was filtered out. -/
theorem getD_filter_ne [DecidableEq α] (o : Option α) (d : α) :
    (o.filter (· != d)).getD d = o.getD d := by
  cases o with
  | none => rfl
  | some a =>
    rw [Option.filter_some]
    by_cases h : a = d
    · simp [h]
    · simp [h]

/-! ## Two runs that end alike

A relational reading of `ExceptT ε Option`: two computations are related when they panic together,
fail together with the same error, or both return, with related results. Binding related
computations to continuations that are related on related results gives related computations, so
an equivalence of two programs is proved step by step along their common shape. -/

/-- The outcomes of two runs agree, up to `S` on returned values. -/
inductive RunRel (S : α → β → Prop) : Option (Except ε α) → Option (Except ε β) → Prop
  | panic : RunRel S none none
  | error (e : ε) : RunRel S (some (.error e)) (some (.error e))
  | ok {a : α} {b : β} : S a b → RunRel S (some (.ok a)) (some (.ok b))

namespace RunRel

variable {γ δ : Type} {S : α → β → Prop} {T : γ → δ → Prop}

/-- Every run is related to itself by a reflexive relation of values. -/
theorem refl {R : α → α → Prop} (hR : ∀ a, R a a) : ∀ x : Option (Except ε α), RunRel R x x
  | none => .panic
  | some (.error e) => .error e
  | some (.ok a) => .ok (hR a)

/-- Two returns of related values are related. -/
theorem pure {a : α} {b : β} (h : S a b) :
    RunRel S (Pure.pure a : ExceptT ε Option α).run (Pure.pure b : ExceptT ε Option β).run :=
  .ok h

/-- Binds of related runs with related continuations are related. -/
theorem bind {x : ExceptT ε Option α} {y : ExceptT ε Option β}
    {f : α → ExceptT ε Option γ} {g : β → ExceptT ε Option δ}
    (h : RunRel S x.run y.run) (hfg : ∀ a b, S a b → RunRel T (f a).run (g b).run) :
    RunRel T (x >>= f).run (y >>= g).run := by
  simp only [ExceptT.run_bind]
  cases h with
  | panic => exact .panic
  | error e => exact .error e
  | ok hab => exact hfg _ _ hab

/-- The same first step, then continuations related on each of its results. -/
theorem bind_left {x : ExceptT ε Option α} {f : α → ExceptT ε Option γ}
    {g : α → ExceptT ε Option δ} (hfg : ∀ a, x.run = some (.ok a) → RunRel T (f a).run (g a).run) :
    RunRel T (x >>= f).run (x >>= g).run := by
  simp only [ExceptT.run_bind]
  rcases hx : x.run with _ | _ | a
  · exact .panic
  · exact .error _
  · exact hfg a hx

/-- Binds of one run with related continuations are related. -/
theorem bind_same {x : ExceptT ε Option α} {f : α → ExceptT ε Option γ}
    {g : α → ExceptT ε Option δ} (hfg : ∀ a, RunRel T (f a).run (g a).run) :
    RunRel T (x >>= f).run (x >>= g).run :=
  bind_left fun a _ => hfg a

/-- A run related to a returning run returns too. -/
theorem of_ok_left {a : α} {y : Option (Except ε β)} (h : RunRel S (some (.ok a)) y) :
    ∃ b, y = some (.ok b) ∧ S a b := by
  cases h with
  | ok hab => exact ⟨_, rfl, hab⟩

/-- Related by equality is equal. -/
theorem eq {x y : Option (Except ε α)} (h : RunRel (· = ·) x y) : x = y := by
  cases h with
  | panic => rfl
  | error e => rfl
  | ok hab => rw [hab]

end RunRel

/-! ## Calls in turn on a shared state

Methods that take `&self` and share a state behind it, and may panic, are `StateT σ Option`
computations; a sequence of calls is their `mapM`. -/

section Calls

variable {σ : Type} {f : α → StateT σ Option β} {a : α} {l : List α} {s s' : σ} {bs : List β}

/-- Calls in turn return the first call's result, then those of the rest, from the state the first
left. -/
theorem run_mapM_cons_eq_some :
    ((a :: l).mapM f).run s = some (bs, s') ↔
      ∃ b s₁ rest, (f a).run s = some (b, s₁) ∧ (l.mapM f).run s₁ = some (rest, s') ∧
        bs = b :: rest := by
  simp only [List.mapM_cons, StateT.run_bind, StateT.run_pure, Option.bind_eq_bind,
    Option.bind_eq_some_iff, Option.pure_def, Option.some.injEq, Prod.mk.injEq, Prod.exists]
  constructor
  · rintro ⟨b, s₁, hb, rest, s₂, hrest, rfl, rfl⟩
    exact ⟨b, s₁, rest, hb, hrest, rfl⟩
  · rintro ⟨b, s₁, rest, hb, hrest, rfl⟩
    exact ⟨b, s₁, hb, rest, s', hrest, rfl, rfl⟩

/-- Calls in turn return one result for each call. -/
theorem length_of_run_mapM_eq_some (h : (l.mapM f).run s = some (bs, s')) :
    bs.length = l.length := by
  induction l generalizing s bs with
  | nil =>
    simp only [List.mapM_nil, StateT.run_pure, Option.pure_def, Option.some.injEq,
      Prod.mk.injEq] at h
    rw [← h.1]
    rfl
  | cons a l ih =>
    obtain ⟨b, s₁, rest, -, hrest, rfl⟩ := run_mapM_cons_eq_some.mp h
    rw [List.length_cons, List.length_cons, ih hrest]

/-- A call whose result is mapped returns the map of what the call returns. -/
theorem run_map_eq_some {g : β → γ} {x : StateT σ Option β} {c : γ} :
    (g <$> x).run s = some (c, s') ↔ ∃ b, x.run s = some (b, s') ∧ g b = c := by
  simp only [StateT.run_map, Option.map_eq_map, Option.map_eq_some_iff, Prod.mk.injEq,
    Prod.exists]
  constructor
  · rintro ⟨b, s₁, hb, rfl, rfl⟩
    exact ⟨b, hb, rfl⟩
  · rintro ⟨b, hb, rfl⟩
    exact ⟨b, s', hb, rfl, rfl⟩

/-- A mapped state computation panics exactly when the computation does. -/
theorem run_map_eq_none {g : β → γ} {x : StateT σ Option β} :
    (g <$> x).run s = none ↔ x.run s = none := by
  simp [StateT.run_map]

/-- Calls over two lists in turn: those over the first, then those over the second from the state
the first left. -/
theorem run_mapM_append_eq_some {l₁ l₂ : List α} :
    ((l₁ ++ l₂).mapM f).run s = some (bs, s') ↔
      ∃ bs₁ s₁ bs₂, (l₁.mapM f).run s = some (bs₁, s₁) ∧ (l₂.mapM f).run s₁ = some (bs₂, s') ∧
        bs = bs₁ ++ bs₂ := by
  simp only [List.mapM_append, StateT.run_bind, StateT.run_pure, Option.bind_eq_bind,
    Option.bind_eq_some_iff, Option.pure_def, Option.some.injEq, Prod.mk.injEq, Prod.exists]
  constructor
  · rintro ⟨bs₁, s₁, h₁, bs₂, s₂, h₂, rfl, rfl⟩
    exact ⟨bs₁, s₁, bs₂, h₁, h₂, rfl⟩
  · rintro ⟨bs₁, s₁, bs₂, h₁, h₂, rfl⟩
    exact ⟨bs₁, s₁, h₁, bs₂, s', h₂, rfl, rfl⟩

/-- Decoding every item of a list, when none fails, keeps every item: the same as keeping those
that decode. -/
theorem filterMap_of_mapM_eq_some {g : α → Option β} :
    ∀ {l : List α} {bs : List β}, l.mapM g = some bs → l.filterMap g = bs
  | [], bs, h => by
    simp only [List.mapM_nil, Option.pure_def, Option.some.injEq] at h
    rw [← h, List.filterMap_nil]
  | a :: l, bs, h => by
    simp only [List.mapM_cons, Option.bind_eq_bind, Option.bind_eq_some_iff, Option.pure_def,
      Option.some.injEq] at h
    obtain ⟨b, hb, rest, hrest, rfl⟩ := h
    rw [List.filterMap_cons_some hb, filterMap_of_mapM_eq_some hrest]

/-- Calls in turn panic exactly when one of them would, where whether a call panics does not
depend on the state it starts from. The induction is on the calls, from any state. -/
theorem run_mapM_eq_none_iff {P : α → Prop} (hf : ∀ a s, (f a).run s = none ↔ P a) :
    ∀ (l : List α) (s : σ), (l.mapM f).run s = none ↔ ∃ a ∈ l, P a := by
  intro l
  induction l with
  | nil => simp
  | cons a l ih =>
    intro s
    simp only [List.mapM_cons, StateT.run_bind, Option.bind_eq_bind, List.mem_cons,
      exists_eq_or_imp]
    rcases h : (f a).run s with _ | ⟨b, s₁⟩
    · -- the first call panics
      simp only [Option.bind_none, true_iff]
      exact .inl ((hf a s).mp h)
    · -- the first call returns, so the calls panic exactly when one of the rest does
      have hna : ¬P a := fun hp => Option.some_ne_none _ (h ▸ (hf a s).mpr hp)
      rw [or_iff_right hna, ← ih s₁]
      rcases hl : (l.mapM f).run s₁ with _ | ⟨rest, s₂⟩ <;> simp [hl]

end Calls

/-! ## Strings

A Rust `str` is valid UTF-8; here it is a `String`, whose bytes are its UTF-8 encoding. -/

section Strings

/-- `std::str::from_utf8`: the string that the bytes encode, when they are valid UTF-8. -/
def fromUtf8 (bytes : List UInt8) : Option String := String.fromUTF8? bytes.toByteArray

/-- `String::into_bytes`: the UTF-8 encoding of a string. -/
def intoBytes (s : String) : List UInt8 := s.toUTF8.data.toList

/-- `str::split` at a character: the pieces between its occurrences. -/
def split (s : String) (c : Char) : List String := (s.toList.splitOn c).map String.ofList

/-- The bytes of a string decode back to the string. -/
theorem fromUtf8_intoBytes (s : String) : fromUtf8 (intoBytes s) = some s := by
  have hbytes : (intoBytes s).toByteArray = s.toUTF8 :=
    ByteArray.ext (by rw [intoBytes, List.data_toByteArray, Array.toArray_toList])
  unfold fromUtf8 String.fromUTF8?
  rw [hbytes, String.toUTF8_eq_toByteArray, dif_pos s.isValidUTF8]
  rfl

/-- Bytes decode to a string exactly when they are its encoding. -/
theorem fromUtf8_eq_some_iff {bytes : List UInt8} {s : String} :
    fromUtf8 bytes = some s ↔ intoBytes s = bytes := by
  constructor
  · intro h
    unfold fromUtf8 String.fromUTF8? at h
    split at h
    · next hv =>
      cases h
      -- the string decoded has the bytes themselves for its encoding
      have hutf : (String.fromUTF8 bytes.toByteArray hv).toUTF8 = bytes.toByteArray := rfl
      rw [intoBytes, hutf, List.data_toByteArray, List.toList_toArray]
    · cases h
  · rintro rfl
    exact fromUtf8_intoBytes s

variable {α : Type} [BEq α] {c : α}

/-- No piece of a split holds the separator. -/
theorem not_mem_of_mem_splitOn [LawfulBEq α] {xs l : List α} (h : l ∈ xs.splitOn c) : c ∉ l := by
  induction xs generalizing l with
  | nil =>
    rw [List.splitOn_nil, List.mem_singleton] at h
    subst h
    exact List.not_mem_nil
  | cons x xs ih =>
    rw [List.splitOn_cons_eq_if_modifyHead] at h
    obtain ⟨p, ps, hps⟩ := List.exists_cons_of_ne_nil (List.splitOn_ne_nil c xs)
    split at h
    · -- the separator starts a new, empty piece
      rcases List.mem_cons.mp h with rfl | h
      · exact List.not_mem_nil
      · exact ih h
    · -- any other element joins the first piece
      next hx =>
      rw [hps, List.modifyHead_cons] at h
      rcases List.mem_cons.mp h with rfl | h
      · have hp : c ∉ p := ih (hps ▸ List.mem_cons_self)
        rw [List.mem_cons, not_or]
        exact ⟨fun hc => hx (hc ▸ beq_self_eq_true c), hp⟩
      · exact ih (hps ▸ List.mem_cons_of_mem _ h)

/-- A split has one piece more than the separator has occurrences. -/
theorem length_splitOn (xs : List α) : (xs.splitOn c).length = xs.count c + 1 := by
  induction xs with
  | nil => rfl
  | cons x xs ih =>
    obtain ⟨p, ps, hps⟩ := List.exists_cons_of_ne_nil (List.splitOn_ne_nil c xs)
    rw [List.splitOn_cons_eq_if_modifyHead, List.count_cons]
    by_cases hx : (x == c) = true
    · rw [if_pos hx, if_pos hx, List.length_cons, ih]
    · -- the first piece grows and the pieces stay as many
      rw [if_neg hx, if_neg hx, hps, List.modifyHead_cons, List.length_cons]
      rw [hps, List.length_cons] at ih
      omega

/-- A string splits in two exactly when it is two pieces without the separator, joined by it. -/
theorem split_eq_pair_iff {s a b : String} {c : Char} :
    split s c = [a, b] ↔ s = a ++ String.singleton c ++ b ∧ c ∉ a.toList ∧ c ∉ b.toList := by
  have hjoin : a.toList ++ [c] ++ b.toList = [c].intercalate [a.toList, b.toList] := by
    simp [List.intercalate]
  constructor
  · intro h
    -- the pieces, as lists of characters
    have hpieces : s.toList.splitOn c = [a.toList, b.toList] := by
      have := congrArg (List.map String.toList) h
      rwa [split, List.map_map, show String.toList ∘ String.ofList = id from
        funext fun l => String.toList_ofList, List.map_id] at this
    refine ⟨String.toList_inj.mp ?_, not_mem_of_mem_splitOn (hpieces ▸ List.mem_cons_self),
      not_mem_of_mem_splitOn (hpieces ▸ List.mem_cons_of_mem _ List.mem_cons_self)⟩
    rw [String.toList_append, String.toList_append, String.toList_singleton, hjoin, ← hpieces,
      List.intercalate_splitOn]
  · rintro ⟨rfl, ha, hb⟩
    rw [split, String.toList_append, String.toList_append, String.toList_singleton, hjoin,
      List.splitOn_intercalate c (by simp [ha, hb]) (by simp)]
    simp

/-- A split has one piece more than the separator has occurrences. -/
theorem length_split (s : String) (c : Char) : (split s c).length = s.toList.count c + 1 := by
  rw [split, List.length_map, length_splitOn]

/-- `str::split_once` at a character: what is before its first occurrence and what is after. -/
def splitOnce (c : α) : List α → Option (List α × List α)
  | [] => none
  | x :: xs => if x == c then some ([], xs) else (splitOnce c xs).map fun p => (x :: p.1, p.2)

/-- `str::strip_suffix` of a character: what is before it, when the string ends with it. -/
def stripSuffix (c : α) (xs : List α) : Option (List α) :=
  match xs.getLast? with
  | some x => if x == c then some xs.dropLast else none
  | none => none

variable [LawfulBEq α]

/-- A string splits at the first occurrence of the character. -/
theorem splitOnce_append {a : List α} (b : List α) (h : c ∉ a) :
    splitOnce c (a ++ c :: b) = some (a, b) := by
  induction a with
  | nil => simp [splitOnce]
  | cons x a ih =>
    rw [List.mem_cons, not_or] at h
    have hx : (x == c) = false := beq_false_of_ne (Ne.symm h.1)
    rw [List.cons_append, splitOnce, hx, if_neg Bool.false_ne_true, ih h.2]
    rfl

/-- A list without the separator does not split. -/
theorem splitOnce_eq_none {a : List α} (h : c ∉ a) : splitOnce c a = none := by
  induction a with
  | nil => rfl
  | cons x a ih =>
    rw [List.mem_cons, not_or] at h
    have hx : (x == c) = false := beq_false_of_ne (Ne.symm h.1)
    rw [splitOnce, hx, if_neg Bool.false_ne_true, ih h.2]
    rfl

/-- A list ending in the suffix loses exactly that element. -/
theorem stripSuffix_append_singleton (xs : List α) : stripSuffix c (xs ++ [c]) = some xs := by
  simp only [stripSuffix, List.getLast?_concat, beq_self_eq_true, if_pos, List.dropLast_concat]

end Strings

end Rust
