import Tendermint.LightClient.Store
import Tendermint.Lib.Rust

/-!
# The light client's components

`errors.rs`, `contracts.rs` and `components/{clock,io,scheduler}.rs`: the errors the light client
returns, the predicates of its contracts, the clock and the I/O component, and the bisecting
scheduler.

The contracts of the `contracts` crate (`#[requires]`, `#[ensures]`) are checked at run time in
every build (the crate is a dependency with its default features off, none of which disables them),
so a contract that fails is a panic, modelled by `Rust.assert`. A trait's contract is checked around
every implementation of the method, and a function's own contract inside it.

A clock and a peer answer differently each time they are asked; they are modelled by what they
answer at each iteration of the loop that asks them, which asks each at most once.
-/

namespace Tendermint

namespace LightClient

open Verifier Rust

/-! ## Errors -/

/-- `IoError`, without the sources that `flex_error` attaches. -/
inductive IoError
  | rpc
  | invalidHeight
  | heightTooHigh (height latestHeight : Height)
  | invalidValidatorSet
  | timeout (duration : Duration)
  | runtime

/-- The kinds of `Error` that the verification loop returns, and `HeightTooHigh`, which only
`Instance::get_or_fetch_block` raises. -/
inductive Error
  | io (e : IoError)
  | noInitialTrustedState
  | targetLowerThanTrustedState (targetHeight trustedHeight : Height)
  | heightTooHigh (height latestHeight : Height)
  | trustedStateOutsideTrustingPeriod (trustedState : LightBlock) (options : Options)
  | invalidLightBlock (e : VerificationError)

/-! ## Contracts -/

/-- `is_within_trust_period`: the block is younger than the trusting period; a start of the period
that is not a time counts as expired. -/
def isWithinTrustPeriod (lightBlock : LightBlock) (trustingPeriod : Duration) (now : Time) : Bool :=
  match now.sub trustingPeriod with
  | .ok start => decide (lightBlock.signedHeader.header.time > start)
  | .error _ => false

/-- `trusted_store_contains_block_at_target_height`. -/
def trustedStoreContainsBlockAtTargetHeight (lightStore : MemoryStore) (targetHeight : Height) :
    Bool :=
  (lightStore.get targetHeight .verified).isSome || (lightStore.get targetHeight .trusted).isSome

/-! ## Clock and I/O -/

/-- `AtHeight`. -/
inductive AtHeight
  | at (height : Height)
  | highest

/-- The `Clock` component: the time `now()` reads at each iteration. -/
structure Clock where
  now : Nat → Time

/-- The `Io` component: what `fetch_light_block` answers at each iteration. A peer may answer a
request for one height with a block of another. -/
structure Io where
  fetchLightBlock : Nat → AtHeight → Except IoError LightBlock

/-! ## The scheduler -/

/-- `valid_schedule`, which `unwrap`s the highest trusted height. -/
def validSchedule (scheduledHeight targetHeight currentHeight : Height) (lightStore : MemoryStore) :
    Option Bool := do
  let latestTrustedHeight ← (lightStore.highestTrustedOrVerifiedBefore targetHeight).map (·.height)
  pure <|
    if latestTrustedHeight = currentHeight ∧ latestTrustedHeight < targetHeight then
      decide (currentHeight < scheduledHeight ∧ scheduledHeight ≤ targetHeight)
    else if latestTrustedHeight < currentHeight ∧ latestTrustedHeight < targetHeight then
      decide (latestTrustedHeight < scheduledHeight ∧ scheduledHeight < currentHeight)
    else if latestTrustedHeight = targetHeight then
      decide (scheduledHeight = targetHeight)
    else true

/-- `midpoint`, with its contract. Below `i64::MAX` its `u64` arithmetic neither overflows nor, once
`low ≤ high`, underflows; the conversion back to a height is `unwrap`ped. -/
def midpoint (low high : Height) : Option Height := do
  assert (decide (low ≤ high))
  let ret ← Height.ofNat? (low.value + (high.value + 1 - low.value) / 2)
  assert (decide (low ≤ ret ∧ ret ≤ high))
  pure ret

/-- `basic_bisecting_schedule`, with its contract: the target once the current height is trusted,
and otherwise the midpoint between the trusted and the current height. -/
def basicBisectingSchedule (lightStore : MemoryStore) (currentHeight targetHeight : Height) :
    Option Height := do
  assert lightStore.highestTrustedOrVerified.isSome
  let trustedHeight ← (lightStore.highestTrustedOrVerifiedBefore targetHeight).map (·.height)
  let ret ← if trustedHeight = currentHeight then pure targetHeight
    else midpoint trustedHeight currentHeight
  assert (← validSchedule ret targetHeight currentHeight lightStore)
  pure ret

/-- `Scheduler::schedule`: a scheduler, with the contract of the trait checked around it. -/
def schedule (scheduler : MemoryStore → Height → Height → Option Height) (lightStore : MemoryStore)
    (currentHeight targetHeight : Height) : Option Height := do
  assert (lightStore.highestTrustedOrVerifiedBefore targetHeight).isSome
  let ret ← scheduler lightStore currentHeight targetHeight
  assert (← validSchedule ret targetHeight currentHeight lightStore)
  pure ret

/-! ### What the scheduler computes -/

section Schedule

variable {st : MemoryStore} {t : LightBlock} {currentHeight targetHeight r : Height}

theorem midpoint_eq_some {low high r : Height} :
    midpoint low high = some r ↔
      low ≤ high ∧ r.value = low.value + (high.value + 1 - low.value) / 2 := by
  simp only [midpoint, Option.bind_eq_bind, Option.bind_eq_some_iff, assert_eq_some,
    decide_eq_true_eq, Height.ofNat?_eq_some, Option.pure_def, Option.some.injEq]
  constructor
  · rintro ⟨-, hle, m, hm, -, -, rfl⟩
    exact ⟨hle, hm⟩
  · rintro ⟨hle, hr⟩
    refine ⟨(), hle, r, hr, (), ?_, rfl⟩
    simp only [Height.le_iff] at hle ⊢
    omega

theorem midpoint_eq_none {low high : Height} : midpoint low high = none ↔ ¬ low ≤ high := by
  rw [← not_iff_not, ← ne_eq, Option.ne_none_iff_exists', not_not]
  constructor
  · rintro ⟨r, hr⟩
    exact (midpoint_eq_some.mp hr).1
  · intro hle
    have hlt : low.value + (high.value + 1 - low.value) / 2 < i64Bound := by
      have := high.lt
      simp only [Height.le_iff] at hle
      omega
    exact ⟨⟨_, hlt⟩, midpoint_eq_some.mpr ⟨hle, rfl⟩⟩

theorem validSchedule_of_highest (hT : st.highestTrustedOrVerifiedBefore targetHeight = some t)
    (scheduledHeight : Height) :
    validSchedule scheduledHeight targetHeight currentHeight st =
      some (if t.height = currentHeight ∧ t.height < targetHeight then
        decide (currentHeight < scheduledHeight ∧ scheduledHeight ≤ targetHeight)
      else if t.height < currentHeight ∧ t.height < targetHeight then
        decide (t.height < scheduledHeight ∧ scheduledHeight < currentHeight)
      else if t.height = targetHeight then
        decide (scheduledHeight = targetHeight)
      else true) := by
  simp [validSchedule, hT]

/-- What `basic_bisecting_schedule` returns it has checked against `valid_schedule`. -/
theorem validSchedule_of_basicBisectingSchedule
    (h : basicBisectingSchedule st currentHeight targetHeight = some r) :
    validSchedule r targetHeight currentHeight st = some true := by
  unfold basicBisectingSchedule at h
  simp only [Option.bind_eq_bind, Option.bind_eq_some_iff, assert_eq_some] at h
  obtain ⟨-, -, th, -, h⟩ := h
  -- both branches end with the same check of `valid_schedule`
  have tail : ∀ o : Option Height, (o.bind fun ret => (validSchedule ret targetHeight currentHeight
      st).bind fun v => (assert v).bind fun _ => some ret) = some r →
      validSchedule r targetHeight currentHeight st = some true := by
    intro o ho
    simp only [Option.bind_eq_some_iff, assert_eq_some, Option.some.injEq] at ho
    obtain ⟨ret, -, v, hv, -, rfl, rfl⟩ := ho
    rw [hv]
  split at h
  · exact tail _ h
  · exact tail _ h

/-- The trait's contract adds nothing to a scheduler that checks `valid_schedule` itself, once a
block is trusted below the target. -/
theorem schedule_of_valid {scheduler : MemoryStore → Height → Height → Option Height}
    (hvalid : ∀ r, scheduler st currentHeight targetHeight = some r →
      validSchedule r targetHeight currentHeight st = some true)
    (hT : st.highestTrustedOrVerifiedBefore targetHeight = some t) :
    schedule scheduler st currentHeight targetHeight = scheduler st currentHeight targetHeight := by
  simp only [schedule, hT, Option.isSome_some, assert, if_true, Option.bind_eq_bind,
    Option.bind_some, Option.pure_def]
  cases hs : scheduler st currentHeight targetHeight with
  | none => rfl
  | some r => simp [hvalid r hs]

theorem basicBisectingSchedule_eq_some
    (hT : st.highestTrustedOrVerifiedBefore targetHeight = some t) :
    basicBisectingSchedule st currentHeight targetHeight = some r ↔
      (t.height = currentHeight ∧ r = targetHeight) ∨
        (t.height ≠ currentHeight ∧ t.height.value + 2 ≤ currentHeight.value ∧
          t.height < targetHeight ∧
          r.value = t.height.value + (currentHeight.value + 1 - t.height.value) / 2) := by
  have hle : t.height ≤ targetHeight :=
    (MemoryStore.highestTrustedOrVerifiedBefore_eq_some_iff.mp hT).le
  have hsome : st.highestTrustedOrVerified.isSome := by
    obtain ⟨s, hs, hl⟩ := (MemoryStore.highestTrustedOrVerifiedBefore_eq_some_iff.mp hT).mem
    exact MemoryStore.highestTrustedOrVerified_isSome hl hs
  simp only [basicBisectingSchedule, hT, hsome, Option.map_some, validSchedule_of_highest hT,
    assert, if_true, Option.bind_eq_bind, Option.bind_some, Option.pure_def]
  by_cases hc : t.height = currentHeight
  · -- the target is scheduled, and it is valid whether or not the target is trusted
    subst hc
    by_cases htt : t.height < targetHeight
    · simp [htt, eq_comm]
    · have heq : t.height = targetHeight := le_antisymm hle (not_lt.mp htt)
      simp [heq, eq_comm]
  · -- the midpoint is scheduled, and it lies above the trusted height
    simp only [hc, if_false, false_and, false_or, ne_eq, not_false_eq_true, true_and]
    cases hm : midpoint t.height currentHeight with
    | none =>
      have hlt := midpoint_eq_none.mp hm
      simp only [Option.bind_none, reduceCtorEq, false_iff]
      rintro ⟨h, -⟩
      exact hlt (Height.le_iff.mpr (by omega))
    | some m =>
      obtain ⟨hlm, hmv⟩ := midpoint_eq_some.mp hm
      have hct : t.height < currentHeight := lt_of_le_of_ne hlm hc
      simp only [Option.bind_some]
      by_cases htt : t.height < targetHeight
      · have hvalid : t.height < m ∧ m < currentHeight ↔ t.height.value + 2 ≤ currentHeight.value := by
          simp only [Height.lt_iff] at hct ⊢
          omega
        simp only [hct, htt, and_self, if_true, hvalid]
        by_cases h₂ : t.height.value + 2 ≤ currentHeight.value
        · simp only [h₂, decide_true, if_true, Option.bind_some, Option.some.injEq,
            Height.ext_iff', hmv, true_and]
          exact eq_comm
        · simp [h₂]
      · have heq : t.height = targetHeight := le_antisymm hle (not_lt.mp htt)
        have hmt : m ≠ targetHeight := by
          rw [ne_eq, Height.ext_iff', ← heq, hmv]
          simp only [Height.lt_iff] at hct
          omega
        simp [heq, hmt]

/-- One above the low height, the midpoint rounds up to the high height itself. -/
theorem midpoint_of_value_eq_succ {low high : Height} (h : high.value = low.value + 1) :
    midpoint low high = some high :=
  midpoint_eq_some.mpr ⟨Height.le_iff.mpr (by omega), by omega⟩

/-- Between the trusted height and the target, `basic_bisecting_schedule` returns a height from
every current height but the one right above the trusted height. -/
theorem basicBisectingSchedule_eq_none_iff
    (hT : st.highestTrustedOrVerifiedBefore targetHeight = some t)
    (hlo : t.height ≤ currentHeight) (hhi : currentHeight ≤ targetHeight) :
    basicBisectingSchedule st currentHeight targetHeight = none ↔
      currentHeight.value = t.height.value + 1 := by
  rw [← not_iff_not, ← ne_eq, Option.ne_none_iff_exists']
  constructor
  · rintro ⟨r, hr⟩
    rcases (basicBisectingSchedule_eq_some hT).mp hr with ⟨hc, -⟩ | ⟨-, h₂, -⟩
    · rw [← hc]
      omega
    · omega
  · intro hne
    by_cases hc : t.height = currentHeight
    · exact ⟨targetHeight, (basicBisectingSchedule_eq_some hT).mpr (.inl ⟨hc, rfl⟩)⟩
    · -- two or more above the trusted height, and so the target is above it too
      have h₂ : t.height.value + 2 ≤ currentHeight.value := by
        rw [Height.ext_iff'] at hc
        rw [Height.le_iff] at hlo
        omega
      have htt : t.height < targetHeight := by
        rw [Height.le_iff] at hhi
        rw [Height.lt_iff]
        omega
      have hmid : t.height.value + (currentHeight.value + 1 - t.height.value) / 2 < i64Bound := by
        have := currentHeight.lt
        omega
      exact ⟨⟨_, hmid⟩, (basicBisectingSchedule_eq_some hT).mpr (.inr ⟨hc, h₂, htt, rfl⟩)⟩

/-- Case ii) of `valid_schedule` refuses the current height when it is right above the trusted
height. -/
theorem validSchedule_current_of_value_eq_succ
    (hT : st.highestTrustedOrVerifiedBefore targetHeight = some t)
    (hc : currentHeight.value = t.height.value + 1) (hhi : currentHeight ≤ targetHeight) :
    validSchedule currentHeight targetHeight currentHeight st = some false := by
  have hne : t.height ≠ currentHeight := by
    rw [ne_eq, Height.ext_iff']
    omega
  have hlt : t.height < currentHeight := Height.lt_iff.mpr (by omega)
  have htt : t.height < targetHeight := lt_of_lt_of_le hlt hhi
  rw [validSchedule_of_highest hT]
  simp [hne, hlt, htt]

end Schedule

end LightClient

end Tendermint
