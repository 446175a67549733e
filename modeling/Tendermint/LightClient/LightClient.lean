import Tendermint.Lib.Loop
import Tendermint.LightClient.State

/-!
# The light client

`light_client.rs`: `verify_to_target` answers from the store when the target is already trusted or
verified, and otherwise runs `verify_forward` from the highest trusted or verified block below the
target (`verify_backward`, without the `unstable` feature, only reports the target as too low).

`verify_forward` is a `loop`: each iteration reads the clock, takes the highest trusted or verified
block below the target as the trusted block, records the current height in the target's trace,
returns the trusted block once it is at the target, and otherwise fetches the block at the current
height (from the store, or from the peer), has the verifier judge it against the trusted block,
stores it with the status the verdict gives, and asks the scheduler for the next height. The loop
is modelled by its body, `verifyForwardStep`, run on fuel by `Loop.run`; the body's `n`-th run
reads the `n`-th answers of the clock and of the peer.

The verifier and the scheduler are the components the client is built with: the one method of
each that the loop calls.
-/

namespace Tendermint

open Verifier Rust LightClient

/-- `LightClient`. -/
structure LightClient where
  peer : PeerId
  options : Options
  clock : Clock
  scheduler : MemoryStore → Height → Height → Option Height
  verifier : UntrustedBlockState → TrustedBlockState → Options → Time → Option Verdict
  io : Io

namespace LightClient

/-- `LightClient::get_or_fetch_block` at the `n`-th iteration, with its contract: a block of the
store at the height that has not failed, or else the peer's answer, stored as unverified. -/
def getOrFetchBlock (self : LightClient) (n : Nat) (height : Height) (state : State) :
    Option (Except Error (LightBlock × Status) × State) :=
  let (ret, state) : Except Error (LightBlock × Status) × State :=
    match state.lightStore.getNonFailed height with
    | some block => (.ok block, state)
    | none =>
      match self.io.fetchLightBlock n (.at height) with
      | .error e => (.error (.io e), state)
      | .ok block =>
        (.ok (block, .unverified),
          { state with lightStore := state.lightStore.insert block .unverified })
  -- #[ensures]: a block returned comes from the client's peer
  (assert (match ret with
    | .ok (lb, _) => lb.provider == self.peer
    | .error _ => true)).map fun _ => (ret, state)

/-- The body of the loop of `verify_forward`, at its `n`-th iteration: it returns from the method
with a result and the state, or goes round again at a new current height. -/
def verifyForwardStep (self : LightClient) (targetHeight : Height) (n : Nat)
    (currentHeight : Height) (state : State) :
    Option (Loop.Step (Height × State) (Except Error LightBlock × State)) :=
  let now := self.clock.now n
  match state.lightStore.highestTrustedOrVerifiedBefore targetHeight with
  | none => some (.done (.error .noInitialTrustedState, state))
  | some trustedBlock =>
    if targetHeight < trustedBlock.height then
      some (.done (.error (.targetLowerThanTrustedState targetHeight trustedBlock.height), state))
    else if !isWithinTrustPeriod trustedBlock self.options.trustingPeriod now then
      some (.done (.error (.trustedStateOutsideTrustingPeriod trustedBlock self.options), state))
    else do
      let state ← state.traceBlock targetHeight currentHeight
      if targetHeight = trustedBlock.height then pure (.done (.ok trustedBlock, state))
      else do
        let (fetched, state) ← self.getOrFetchBlock n currentHeight state
        match fetched with
        | .error e => pure (.done (.error e, state))
        | .ok (currentBlock, status) => do
          let verdict ← self.verifier currentBlock.asUntrustedState trustedBlock.asTrustedState
            self.options now
          match verdict with
          | .success => do
            let state := { state with
              lightStore := state.lightStore.update currentBlock (.mostTrusted .verified status) }
            let state ← state.traceBlock currentHeight trustedBlock.height
            let currentHeight ← schedule self.scheduler state.lightStore currentHeight targetHeight
            pure (.next (currentHeight, state))
          | .invalid e =>
            let state := { state with lightStore := state.lightStore.update currentBlock .failed }
            pure (.done (.error (.invalidLightBlock e), state))
          | .notEnoughTrust _ => do
            let state := { state with
              lightStore := state.lightStore.update currentBlock .unverified }
            let currentHeight ← schedule self.scheduler state.lightStore currentHeight targetHeight
            pure (.next (currentHeight, state))

/-- `LightClient::verify_forward`, for at most `fuel` iterations of its loop. -/
def verifyForward (self : LightClient) (fuel : Nat) (targetHeight : Height) (state : State) :
    Option (Loop.Step (Height × State) (Except Error LightBlock × State)) :=
  Loop.run (fun n s => self.verifyForwardStep targetHeight n s.1 s.2) fuel 0 (targetHeight, state)

/-- `LightClient::verify_backward` without the `unstable` feature. -/
def verifyBackward (targetHeight : Height) (state : State) : Except Error LightBlock × State :=
  match (state.lightStore.highestTrustedOrVerifiedBefore targetHeight).or
      state.lightStore.lowestTrustedOrVerified with
  | none => (.error .noInitialTrustedState, state)
  | some trustedState =>
    (.error (.targetLowerThanTrustedState targetHeight trustedState.height), state)

/-- `LightClient::verify_to_target`, with its contract, its loop run for at most `fuel`
iterations. -/
def verifyToTarget (self : LightClient) (fuel : Nat) (targetHeight : Height) (state : State) :
    Option (Loop.Step (Height × State) (Except Error LightBlock × State)) := do
  let ret ← match state.lightStore.getTrustedOrVerified targetHeight with
    | some lightBlock => some (.done (.ok lightBlock, state))
    | none =>
      match (state.lightStore.highestTrustedOrVerifiedBefore targetHeight).or
          state.lightStore.lowestTrustedOrVerified with
      | none => some (.done (.error .noInitialTrustedState, state))
      | some highest =>
        if targetHeight ≥ highest.height then self.verifyForward fuel targetHeight state
        else some (.done (verifyBackward targetHeight state))
  -- #[ensures]: a block returned is trusted or verified in the store, at the target height
  match ret with
  | .done (.ok _, state) =>
    assert (trustedStoreContainsBlockAtTargetHeight state.lightStore targetHeight)
  | _ => pure ()
  pure ret

/-! ## What an iteration can do -/

section Step

variable {self : LightClient} {n : Nat} {target c c' h : Height} {st st' : State}

theorem getOrFetchBlock_eq_some {ret : Except Error (LightBlock × Status)} :
    self.getOrFetchBlock n h st = some (ret, st') ↔
      (∃ b s, st.lightStore.getNonFailed h = some (b, s) ∧ b.provider = self.peer ∧
        ret = .ok (b, s) ∧ st' = st) ∨
      (st.lightStore.getNonFailed h = none ∧
        ((∃ e, self.io.fetchLightBlock n (.at h) = .error e ∧ ret = .error (.io e) ∧ st' = st) ∨
         (∃ b, self.io.fetchLightBlock n (.at h) = .ok b ∧ b.provider = self.peer ∧
            ret = .ok (b, .unverified) ∧
            st' = { st with lightStore := st.lightStore.insert b .unverified }))) := by
  unfold getOrFetchBlock
  cases hg : st.lightStore.getNonFailed h with
  | some p =>
    obtain ⟨b, s⟩ := p
    by_cases hp : b.provider = self.peer
    · simp only [hp, beq_self_eq_true, assert, if_true, Option.map_some, Option.some.injEq,
        Prod.mk.injEq]
      aesop
    · simp [hp, assert]
  | none =>
    cases hio : self.io.fetchLightBlock n (.at h) with
    | error e =>
      simp only [assert, if_true, Option.map_some, Option.some.injEq, Prod.mk.injEq]
      aesop
    | ok b =>
      by_cases hp : b.provider = self.peer
      · simp only [hp, beq_self_eq_true, assert, if_true, Option.map_some, Option.some.injEq,
          Prod.mk.injEq]
        aesop
      · simp [hp, assert]

/-- `get_or_fetch_block` panics exactly when the block it would return is not from the peer. -/
theorem getOrFetchBlock_eq_none :
    self.getOrFetchBlock n h st = none ↔
      (∃ b s, st.lightStore.getNonFailed h = some (b, s) ∧ b.provider ≠ self.peer) ∨
      (st.lightStore.getNonFailed h = none ∧
        ∃ b, self.io.fetchLightBlock n (.at h) = .ok b ∧ b.provider ≠ self.peer) := by
  unfold getOrFetchBlock
  cases hg : st.lightStore.getNonFailed h with
  | some p =>
    obtain ⟨b, s⟩ := p
    by_cases hp : b.provider = self.peer <;> simp [hp, assert]
  | none =>
    cases hio : self.io.fetchLightBlock n (.at h) with
    | error e => simp [assert]
    | ok b => by_cases hp : b.provider = self.peer <;> simp [hp, assert]

/-- Fetching a block leaves the trace alone. -/
theorem verificationTrace_of_getOrFetchBlock {ret : Except Error (LightBlock × Status)}
    (hf : self.getOrFetchBlock n h st = some (ret, st')) :
    st'.verificationTrace = st.verificationTrace := by
  rcases getOrFetchBlock_eq_some.mp hf with ⟨-, -, -, -, -, rfl⟩ | ⟨-, ⟨-, -, -, rfl⟩ | ⟨-, -, -, -, rfl⟩⟩ <;>
    rfl

/-- Fetching a block changes the store at most at the height of the block it returns. -/
theorem lookup_of_getOrFetchBlock {b : LightBlock} {s : Status} {k : Height}
    (hf : self.getOrFetchBlock n h st = some (.ok (b, s), st')) (hk : k ≠ b.height) :
    st'.lightStore.store.lookup k = st.lightStore.store.lookup k := by
  rcases getOrFetchBlock_eq_some.mp hf with ⟨-, -, -, -, -, rfl⟩ | ⟨-, ⟨e, -, hret, -⟩ | ⟨b', -, -, hret, rfl⟩⟩
  · rfl
  · cases hret
  · simp only [Except.ok.injEq, Prod.mk.injEq] at hret
    obtain ⟨rfl, -⟩ := hret
    exact MemoryStore.lookup_insert_of_ne hk

/-- An iteration that reached the verifier: the trusted block it took, the state once the current
height was traced, and the block it fetched with its status. -/
structure Reached (client : LightClient) (targetHeight : Height) (n : Nat)
    (currentHeight : Height) (state : State) (trustedBlock : LightBlock) (traced : State)
    (currentBlock : LightBlock) (status : Status) (fetched : State) : Prop where
  trusted : state.lightStore.highestTrustedOrVerifiedBefore targetHeight = some trustedBlock
  below : trustedBlock.height < targetHeight
  within : isWithinTrustPeriod trustedBlock client.options.trustingPeriod (client.clock.now n) = true
  trace : state.traceBlock targetHeight currentHeight = some traced
  fetch : client.getOrFetchBlock n currentHeight traced = some (.ok (currentBlock, status), fetched)

/-- An iteration that goes round again had its block accepted, or found to lack trust, and then
asked the scheduler. -/
theorem verifyForwardStep_eq_next :
    self.verifyForwardStep target n c st = some (.next (c', st')) ↔
      ∃ tb st₁ cb status st₂, self.Reached target n c st tb st₁ cb status st₂ ∧
        ((self.verifier cb.asUntrustedState tb.asTrustedState self.options (self.clock.now n) =
            some .success ∧
          { st₂ with lightStore := st₂.lightStore.update cb (.mostTrusted .verified status) }.traceBlock
            c tb.height = some st' ∧
          schedule self.scheduler st'.lightStore c target = some c') ∨
        ((∃ t, self.verifier cb.asUntrustedState tb.asTrustedState self.options (self.clock.now n) =
            some (.notEnoughTrust t)) ∧
          st' = { st₂ with lightStore := st₂.lightStore.update cb .unverified } ∧
          schedule self.scheduler st'.lightStore c target = some c')) := by
  constructor
  · intro h
    unfold verifyForwardStep at h
    cases hT : st.lightStore.highestTrustedOrVerifiedBefore target with
    | none => simp [hT] at h
    | some tb =>
      simp only [hT] at h
      by_cases hlt : target < tb.height
      · simp [hlt] at h
      rw [if_neg hlt] at h
      by_cases hw : isWithinTrustPeriod tb self.options.trustingPeriod (self.clock.now n) = true
      · rw [if_neg (by simp [hw])] at h
        simp only [Option.bind_eq_bind, Option.bind_eq_some_iff] at h
        obtain ⟨st₁, htr, h⟩ := h
        by_cases heq : target = tb.height
        · simp [heq] at h
        rw [if_neg heq] at h
        simp only [Option.bind_eq_some_iff] at h
        obtain ⟨⟨fetched, st₂⟩, hf, h⟩ := h
        cases fetched with
        | error e => simp at h
        | ok p =>
          obtain ⟨cb, status⟩ := p
          have hR : self.Reached target n c st tb st₁ cb status st₂ :=
            ⟨hT, lt_of_le_of_ne (not_lt.mp hlt) (Ne.symm heq), hw, htr, hf⟩
          simp only [Option.bind_eq_some_iff] at h
          obtain ⟨v, hv, h⟩ := h
          -- only an accepted block and one that lacks trust let the loop go round
          cases v with
          | success =>
            simp only [Option.bind_eq_some_iff, Option.pure_def, Option.some.injEq,
              Loop.Step.next.injEq, Prod.mk.injEq] at h
            obtain ⟨st₃, htr', c'', hs, rfl, rfl⟩ := h
            exact ⟨tb, st₁, cb, status, st₂, hR, .inl ⟨hv, htr', hs⟩⟩
          | invalid e => simp at h
          | notEnoughTrust t =>
            simp only [Option.bind_eq_some_iff, Option.pure_def, Option.some.injEq,
              Loop.Step.next.injEq, Prod.mk.injEq] at h
            obtain ⟨c'', hs, rfl, rfl⟩ := h
            exact ⟨tb, st₁, cb, status, st₂, hR, .inr ⟨⟨t, hv⟩, rfl, hs⟩⟩
      · simp [hw] at h
  · rintro ⟨tb, st₁, cb, status, st₂, ⟨hT, hlt, hw, htr, hf⟩, h⟩
    unfold verifyForwardStep
    rw [hT]
    simp only [if_neg (not_lt.mpr (le_of_lt hlt)), hw, Bool.not_true, Bool.false_eq_true, if_false,
      Option.bind_eq_bind, htr, Option.bind_some, if_neg (ne_of_gt hlt), hf]
    rcases h with ⟨hv, htr', hs⟩ | ⟨⟨t, hv⟩, rfl, hs⟩
    · simp [hv, htr', hs]
    · simp [hv, hs]

/-- An iteration that returns found no trusted block, a trusted block above the target or
expired, or the target trusted; or it failed to fetch the block, or the verifier found it
invalid. -/
theorem verifyForwardStep_eq_done {r : Except Error LightBlock}
    (h : self.verifyForwardStep target n c st = some (.done (r, st'))) :
    (st.lightStore.highestTrustedOrVerifiedBefore target = none ∧
      r = .error .noInitialTrustedState ∧ st' = st) ∨
    ∃ tb, st.lightStore.highestTrustedOrVerifiedBefore target = some tb ∧
      ((target < tb.height ∧ r = .error (.targetLowerThanTrustedState target tb.height) ∧
          st' = st) ∨
        (isWithinTrustPeriod tb self.options.trustingPeriod (self.clock.now n) = false ∧
          r = .error (.trustedStateOutsideTrustingPeriod tb self.options) ∧ st' = st) ∨
        (st.traceBlock target c = some st' ∧ tb.height = target ∧ r = .ok tb) ∨
        (∃ st₁ e, st.traceBlock target c = some st₁ ∧
          self.getOrFetchBlock n c st₁ = some (.error e, st') ∧ r = .error e) ∨
        (∃ st₁ cb status st₂ e, self.Reached target n c st tb st₁ cb status st₂ ∧
          self.verifier cb.asUntrustedState tb.asTrustedState self.options (self.clock.now n) =
            some (.invalid e) ∧
          st' = { st₂ with lightStore := st₂.lightStore.update cb .failed } ∧
          r = .error (.invalidLightBlock e))) := by
  unfold verifyForwardStep at h
  cases hT : st.lightStore.highestTrustedOrVerifiedBefore target with
  | none =>
    simp only [hT, Option.some.injEq, Loop.Step.done.injEq, Prod.mk.injEq] at h
    exact .inl ⟨rfl, h.1.symm, h.2.symm⟩
  | some tb =>
    refine .inr ⟨tb, rfl, ?_⟩
    simp only [hT] at h
    by_cases hlt : target < tb.height
    · simp only [hlt, if_true, Option.some.injEq, Loop.Step.done.injEq, Prod.mk.injEq] at h
      exact .inl ⟨hlt, h.1.symm, h.2.symm⟩
    rw [if_neg hlt] at h
    by_cases hw : isWithinTrustPeriod tb self.options.trustingPeriod (self.clock.now n) = true
    · rw [if_neg (by simp [hw])] at h
      simp only [Option.bind_eq_bind, Option.bind_eq_some_iff] at h
      obtain ⟨st₁, htr, h⟩ := h
      by_cases heq : target = tb.height
      · simp only [heq, if_true, Option.pure_def, Option.some.injEq, Loop.Step.done.injEq,
          Prod.mk.injEq] at h
        obtain ⟨rfl, rfl⟩ := h
        exact .inr (.inr (.inl ⟨htr, heq.symm, rfl⟩))
      rw [if_neg heq] at h
      simp only [Option.bind_eq_some_iff] at h
      obtain ⟨⟨fetched, st₂⟩, hf, h⟩ := h
      cases fetched with
      | error e =>
        simp only [Option.pure_def, Option.some.injEq, Loop.Step.done.injEq, Prod.mk.injEq] at h
        obtain ⟨rfl, rfl⟩ := h
        exact .inr (.inr (.inr (.inl ⟨st₁, e, htr, hf, rfl⟩)))
      | ok p =>
        obtain ⟨cb, status⟩ := p
        have hR : self.Reached target n c st tb st₁ cb status st₂ :=
          ⟨hT, lt_of_le_of_ne (not_lt.mp hlt) (Ne.symm heq), hw, htr, hf⟩
        simp only [Option.bind_eq_some_iff] at h
        obtain ⟨v, hv, h⟩ := h
        -- only an invalid block ends the loop here
        cases v with
        | success => simp [Option.bind_eq_some_iff] at h
        | invalid e =>
          simp only [Option.pure_def, Option.some.injEq, Loop.Step.done.injEq, Prod.mk.injEq] at h
          obtain ⟨rfl, rfl⟩ := h
          exact .inr (.inr (.inr (.inr ⟨st₁, cb, status, st₂, e, hR, hv, rfl, rfl⟩)))
        | notEnoughTrust t => simp [Option.bind_eq_some_iff] at h
    · simp only [hw, Bool.not_false, if_true, Option.some.injEq, Loop.Step.done.injEq,
        Prod.mk.injEq] at h
      exact .inr (.inl ⟨by simpa using hw, h.1.symm, h.2.symm⟩)

/-- An iteration that panics broke a contract (of `trace_block`, of `get_or_fetch_block` or of the
scheduler), or the verifier panicked. -/
theorem verifyForwardStep_eq_none (h : self.verifyForwardStep target n c st = none) :
    ∃ tb, st.lightStore.highestTrustedOrVerifiedBefore target = some tb ∧
      tb.height ≤ target ∧
      isWithinTrustPeriod tb self.options.trustingPeriod (self.clock.now n) = true ∧
      (st.traceBlock target c = none ∨
        ∃ st₁, st.traceBlock target c = some st₁ ∧ tb.height < target ∧
          (self.getOrFetchBlock n c st₁ = none ∨
            ∃ cb status st₂, self.getOrFetchBlock n c st₁ = some (.ok (cb, status), st₂) ∧
              (self.verifier cb.asUntrustedState tb.asTrustedState self.options
                  (self.clock.now n) = none ∨
                (self.verifier cb.asUntrustedState tb.asTrustedState self.options
                    (self.clock.now n) = some .success ∧
                  ∀ st₃, State.traceBlock
                      { st₂ with lightStore := st₂.lightStore.update cb (.mostTrusted .verified status) }
                      c tb.height = some st₃ →
                    schedule self.scheduler st₃.lightStore c target = none) ∨
                ((∃ t, self.verifier cb.asUntrustedState tb.asTrustedState self.options
                    (self.clock.now n) = some (.notEnoughTrust t)) ∧
                  schedule self.scheduler (st₂.lightStore.update cb .unverified) c target =
                    none)))) := by
  unfold verifyForwardStep at h
  cases hT : st.lightStore.highestTrustedOrVerifiedBefore target with
  | none => simp [hT] at h
  | some tb =>
    refine ⟨tb, rfl, ?_⟩
    simp only [hT] at h
    by_cases hlt : target < tb.height
    · simp [hlt] at h
    rw [if_neg hlt] at h
    refine ⟨not_lt.mp hlt, ?_⟩
    by_cases hw : isWithinTrustPeriod tb self.options.trustingPeriod (self.clock.now n) = true
    · refine ⟨hw, ?_⟩
      rw [if_neg (by simp [hw])] at h
      cases htr : st.traceBlock target c with
      | none => exact .inl rfl
      | some st₁ =>
        refine .inr ⟨st₁, rfl, ?_⟩
        simp only [htr, Option.bind_eq_bind, Option.bind_some] at h
        by_cases heq : target = tb.height
        · simp [heq] at h
        refine ⟨lt_of_le_of_ne (not_lt.mp hlt) (Ne.symm heq), ?_⟩
        rw [if_neg heq] at h
        cases hf : self.getOrFetchBlock n c st₁ with
        | none => exact .inl rfl
        | some p =>
          obtain ⟨fetched, st₂⟩ := p
          simp only [hf, Option.bind_some] at h
          cases fetched with
          | error e => simp at h
          | ok p =>
            obtain ⟨cb, status⟩ := p
            refine .inr ⟨cb, status, st₂, rfl, ?_⟩
            cases hv : self.verifier cb.asUntrustedState tb.asTrustedState self.options
                (self.clock.now n) with
            | none => exact .inl rfl
            | some v =>
              simp only [hv, Option.bind_some] at h
              cases v with
              | success =>
                refine .inr (.inl ⟨rfl, fun st₃ htr' => ?_⟩)
                simp only [htr', Option.bind_some] at h
                cases hs : schedule self.scheduler st₃.lightStore c target
                · rfl
                · simp [hs] at h
              | invalid e => simp at h
              | notEnoughTrust t =>
                refine .inr (.inr ⟨⟨t, rfl⟩, ?_⟩)
                cases hs : schedule self.scheduler (st₂.lightStore.update cb .unverified) c target
                · rfl
                · simp [hs] at h
    · simp [hw] at h

/-- An iteration whose block the verifier finds invalid stores it as failed and returns the
error. -/
theorem verifyForwardStep_of_invalid {tb cb : LightBlock} {st₁ st₂ : State} {status : Status}
    {e : VerificationError} (hR : self.Reached target n c st tb st₁ cb status st₂)
    (hv : self.verifier cb.asUntrustedState tb.asTrustedState self.options (self.clock.now n) =
      some (.invalid e)) :
    self.verifyForwardStep target n c st =
      some (.done (.error (.invalidLightBlock e),
        { st₂ with lightStore := st₂.lightStore.update cb .failed })) := by
  unfold verifyForwardStep
  rw [hR.trusted]
  simp [not_lt.mpr (le_of_lt hR.below), hR.within, hR.trace, ne_of_gt hR.below, hR.fetch, hv]

/-- An iteration whose block lacks trust stores it as unverified and asks the scheduler. -/
theorem verifyForwardStep_of_notEnoughTrust {tb cb : LightBlock} {st₁ st₂ : State}
    {status : Status} {t : VotingPowerTally} (hR : self.Reached target n c st tb st₁ cb status st₂)
    (hv : self.verifier cb.asUntrustedState tb.asTrustedState self.options (self.clock.now n) =
      some (.notEnoughTrust t)) :
    self.verifyForwardStep target n c st =
      (schedule self.scheduler (st₂.lightStore.update cb .unverified) c target).map fun c' =>
        .next (c', { st₂ with lightStore := st₂.lightStore.update cb .unverified }) := by
  unfold verifyForwardStep
  rw [hR.trusted]
  simp [not_lt.mpr (le_of_lt hR.below), hR.within, hR.trace, ne_of_gt hR.below, hR.fetch, hv,
    Option.map_eq_bind]

end Step

/-! ## The forward verification behind `verify_to_target` -/

section ToTarget

variable {self : LightClient} {fuel : Nat} {target : Height} {st : State} {r : LightBlock}

/-- At a target the store does not hold as trusted or verified, above a trusted or verified block,
`verify_to_target` returns what `verify_forward` returns, once its contract holds of it. -/
theorem verifyToTarget_eq_some_of_forward
    {ret : Loop.Step (Height × State) (Except Error LightBlock × State)}
    (hnt : st.lightStore.getTrustedOrVerified target = none)
    (hr : st.lightStore.highestTrustedOrVerifiedBefore target = some r) :
    self.verifyToTarget fuel target st = some ret ↔
      self.verifyForward fuel target st = some ret ∧
        ∀ b st', ret = .done (.ok b, st') →
          trustedStoreContainsBlockAtTargetHeight st'.lightStore target = true := by
  have hle : r.height ≤ target := (MemoryStore.highestTrustedOrVerifiedBefore_eq_some_iff.mp hr).le
  simp only [verifyToTarget, hnt, hr, Option.some_or, ge_iff_le, hle, if_true, Option.bind_eq_bind,
    Option.bind_eq_some_iff]
  constructor
  · rintro ⟨ret', hf, h⟩
    -- only a block returned is checked against the store
    rcases ret' with ⟨(e | b), st'⟩ | p
    · simp only [Option.pure_def, Option.some.injEq] at h
      subst h
      exact ⟨hf, by simp⟩
    · simp only [Option.bind_eq_some_iff, assert_eq_some, Option.pure_def, Option.some.injEq] at h
      obtain ⟨-, hc, rfl⟩ := h
      refine ⟨hf, ?_⟩
      simp only [Loop.Step.done.injEq, Prod.mk.injEq, Except.ok.injEq]
      rintro _ _ ⟨-, rfl⟩
      exact hc
    · simp only [Option.pure_def, Option.some.injEq] at h
      subst h
      exact ⟨hf, by simp⟩
  · rintro ⟨hf, hc⟩
    refine ⟨ret, hf, ?_⟩
    rcases ret with ⟨(e | b), st'⟩ | p
    · rfl
    · simp [hc b st' rfl, assert]
    · rfl

theorem verifyToTarget_eq_none_of_forward
    (hnt : st.lightStore.getTrustedOrVerified target = none)
    (hr : st.lightStore.highestTrustedOrVerifiedBefore target = some r)
    (hf : self.verifyForward fuel target st = none) :
    self.verifyToTarget fuel target st = none := by
  have hle : r.height ≤ target := (MemoryStore.highestTrustedOrVerifiedBefore_eq_some_iff.mp hr).le
  simp [verifyToTarget, hnt, hr, hle, hf]

/-- The state a step of the client's loop leaves, whether it returned or goes round again. -/
def stepState : Loop.Step (Height × State) (Except Error LightBlock × State) → State
  | .done (_, st) => st
  | .next (_, st) => st

/-- The contract of `verify_to_target` panics, or lets the result through. -/
theorem verifyToTarget_contract {x : Option (Loop.Step (Height × State) (Except Error LightBlock × State))}
    {ret : Loop.Step (Height × State) (Except Error LightBlock × State)}
    (h : (x.bind fun r => match r with
      | .done (.ok _, state) =>
        (assert (trustedStoreContainsBlockAtTargetHeight state.lightStore target)).bind fun _ => pure r
      | _ => pure r) = some ret) : x = some ret := by
  obtain ⟨r, hr, hk⟩ := Option.bind_eq_some_iff.mp h
  rw [hr]
  rcases r with ⟨(e | b), st'⟩ | p
  · simpa using hk
  · simp only [Option.bind_eq_some_iff, assert_eq_some, Option.pure_def, Option.some.injEq] at hk
    obtain ⟨-, -, rfl⟩ := hk
    rfl
  · simpa using hk

/-- `verify_to_target` returns what `verify_forward` returns, or a result that leaves the state as
it was. -/
theorem verifyToTarget_eq_some_cases
    {ret : Loop.Step (Height × State) (Except Error LightBlock × State)}
    (h : self.verifyToTarget fuel target st = some ret) :
    stepState ret = st ∨ self.verifyForward fuel target st = some ret := by
  unfold verifyToTarget at h
  split at h
  · cases verifyToTarget_contract h
    exact .inl rfl
  · split at h
    · cases verifyToTarget_contract h
      exact .inl rfl
    · split at h
      · exact .inr (verifyToTarget_contract h)
      · -- backward verification is a stub that answers from the store
        cases verifyToTarget_contract h
        unfold verifyBackward
        split <;> exact .inl rfl

end ToTarget

/-! ## The target or the latest block -/

/-- `TargetOrLatest`. -/
inductive TargetOrLatest
  | latest (lightBlock : LightBlock)
  | target (lightBlock : LightBlock)

/-- `LightClient::get_target_block_or_latest`, at the `n`-th request to the peer: a block of the
store at the height that has not failed, or the peer's block for the height, or else the peer's
latest block, which is the target when it is at the height. -/
def getTargetBlockOrLatest (self : LightClient) (n : Nat) (height : Height) (state : State) :
    Except Error TargetOrLatest :=
  match state.lightStore.getNonFailed height with
  | some (block, _) => .ok (.target block)
  | none =>
    match self.io.fetchLightBlock n (.at height) with
    | .ok block => .ok (.target block)
    | .error _ =>
      match self.io.fetchLightBlock n .highest with
      | .error e => .error (.io e)
      | .ok latest => if latest.height = height then .ok (.target latest) else .ok (.latest latest)

/-- `Instance`: a light client and its state. -/
structure Instance where
  lightClient : LightClient
  state : State

end LightClient

end Tendermint
