import Tendermint.LightClient.LightClient
import Tendermint.Verifier.PredicateVerifier

/-!
# Forward verification with the production components

`verify_forward` run with the verifier and the scheduler `ProdLightClient` is built with:
`PredicateVerifier::verify_update_header` and `basic_bisecting_schedule`. The peer is arbitrary:
`get_or_fetch_block` stores the peer's answer to a request for a height without checking that the
block is at that height (`trust_primary_at` checks it; the loop does not).

Three runs are characterised. A peer that answers the request for the target with a block at the
height of the trusted block has the trusted block's entry replaced: by the peer's block as
unverified, and then, since the verifier finds it not above the trusted one, as failed. A peer that
answers the request for the height right above the trusted block with a later block that lacks trust
makes `basic_bisecting_schedule` schedule the target again, which breaks its own postcondition
`valid_schedule`: the run panics. And once the first iteration finds the target lacking trust, the
trace of the target never records the trusted block the run started from: the run traces each
height it visits under the target, but the trusted block of an accepted intermediate block only
under that block's height (`trace_block(current_height, trusted_block.height())`).

The last is an invariant of the run, `RootUntraced`, established by the first iteration and kept by
every iteration that goes round (`Loop.Reaches.inv`).
-/

namespace Tendermint

namespace LightClient

open Verifier Rust

/-! ## The first iteration -/

section First

variable {self : LightClient} {n : Nat} {target : Height} {st : State} {r b : LightBlock}

/-- A target the store holds no block for lies above the highest trusted block below it. -/
theorem height_lt_of_getNonFailed
    (hr : st.lightStore.highestTrustedOrVerifiedBefore target = some r)
    (hnf : st.lightStore.getNonFailed target = none) : r.height < target := by
  have hb := MemoryStore.highestTrustedOrVerifiedBefore_eq_some_iff.mp hr
  refine lt_of_le_of_ne hb.le fun heq => ?_
  have hnt := MemoryStore.getTrustedOrVerified_eq_none_of_getNonFailed hnf
  rw [← heq, MemoryStore.getTrustedOrVerified_eq_some_iff.mpr hb.mem] at hnt
  cases hnt

/-- The first iteration at a target the store holds no block for traces the target and stores the
peer's answer as unverified. -/
theorem reached_of_fetch
    (hr : st.lightStore.highestTrustedOrVerifiedBefore target = some r)
    (hnf : st.lightStore.getNonFailed target = none)
    (hw : isWithinTrustPeriod r self.options.trustingPeriod (self.clock.now 0) = true)
    (hio : self.io.fetchLightBlock 0 (.at target) = .ok b) (hp : b.provider = self.peer) :
    ∃ st₁, st₁.lightStore = st.lightStore ∧
      self.Reached target 0 target st r st₁ b .unverified
        { st₁ with lightStore := st₁.lightStore.insert b .unverified } := by
  obtain ⟨st₁, htr⟩ := Option.isSome_iff_exists.mp (st.traceBlock_isSome (le_refl target))
  have hst := State.lightStore_of_traceBlock htr
  have hnf₁ : st₁.lightStore.getNonFailed target = none := by rw [hst]; exact hnf
  exact ⟨st₁, hst, hr, height_lt_of_getNonFailed hr hnf, hw, htr,
    getOrFetchBlock_eq_some.mpr (.inr ⟨hnf₁, .inr ⟨b, hio, hp, rfl, rfl⟩⟩)⟩

/-- An iteration at a target the store holds no block for judges the peer's answer. -/
theorem fetched_eq_of_getNonFailed {tb cb : LightBlock} {st₁ st₂ : State} {status : Status}
    (hR : self.Reached target n target st tb st₁ cb status st₂)
    (hnf : st.lightStore.getNonFailed target = none)
    (hio : self.io.fetchLightBlock n (.at target) = .ok b) : cb = b := by
  have hnf₁ : st₁.lightStore.getNonFailed target = none := by
    rw [State.lightStore_of_traceBlock hR.trace]; exact hnf
  rcases getOrFetchBlock_eq_some.mp hR.fetch with ⟨b', s', hg, -⟩ | ⟨-, ⟨e, he, -⟩ | ⟨b', hb', -, hret, -⟩⟩
  · rw [hnf₁] at hg; cases hg
  · rw [hio] at he; cases he
  · rw [hio] at hb'
    cases hb'
    simp only [Except.ok.injEq, Prod.mk.injEq] at hret
    exact hret.1

end First

/-! ## A chain of three heights

The runs below are computed on a chain of three blocks, each committed by one validator of power
one: the block at height one, trusted, and the one at height two are committed by validator `a`,
which they name as the validators of the next height at one and validator `b` at two; the block at
height three is committed by `b`. Every signature is accepted and every hash is zero, so the
verifier decides by heights, times and voting power alone. -/

namespace Chain

/-- The validator of the first two heights. -/
def validatorA : Validator.Info :=
  ⟨⟨List.Vector.replicate 20 0⟩, .ed25519 (List.Vector.replicate 32 0), .fromU8 1, none, 0⟩

/-- The validator of the third height. -/
def validatorB : Validator.Info :=
  ⟨⟨⟨List.replicate 19 0 ++ [1], rfl⟩⟩, .ed25519 (List.Vector.replicate 32 0), .fromU8 1, none, 0⟩

/-- The peer every block comes from. -/
def peer : PeerId := ⟨List.Vector.replicate 20 0⟩

/-- The predicate verifier, with the zero hash and a signature verifier that accepts all. -/
def verifier : PredicateVerifier := ⟨MerkleHash.ofSha256 Sha256.zero, .acceptAll⟩

/-- A block whose commit holds one signature, by `signer`. -/
def block (height : Height) (time : Time) (vals next : Validator.Set)
    (signer : Validator.Info) : LightBlock :=
  let header := Header.ofHashes height time (vals.hashWith verifier.predicates .empty)
    (next.hashWith verifier.predicates .empty)
  ⟨⟨header, ⟨height, .fromU8 0, ⟨header.hashWith verifier.predicates .empty, default⟩,
    [.blockIdFlagCommit signer.address .unixEpoch (some ⟨List.Vector.replicate 64 0⟩)]⟩⟩,
    vals, next, peer⟩

/-- The set of one validator. -/
def single (v : Validator.Info) : Validator.Set := ⟨[v], none, .fromU8 1⟩

def root : LightBlock :=
  block (.fromU8 1) ⟨1, by decide, by decide⟩ (single validatorA) (single validatorA) validatorA

def block2 : LightBlock :=
  block (.fromU8 2) ⟨2, by decide, by decide⟩ (single validatorA) (single validatorB) validatorA

def block3 : LightBlock :=
  block (.fromU8 3) ⟨3, by decide, by decide⟩ (single validatorB) (single validatorB) validatorB

/-- A peer that answers each height with the chain's block there. -/
def honest (h : Height) : Except IoError LightBlock :=
  match h.value with
  | 1 => .ok root
  | 2 => .ok block2
  | 3 => .ok block3
  | _ => .error .invalidHeight

/-- The client, whose clock reads twenty and whose peer answers by `answer`. -/
def client (answer : Height → Except IoError LightBlock) : LightClient where
  peer := peer
  options := ⟨.oneThird, ⟨100, by decide⟩, ⟨10, by decide⟩⟩
  clock := ⟨fun _ => ⟨20, by decide, by decide⟩⟩
  scheduler := basicBisectingSchedule
  verifier := verifier.verifyUpdateHeader .empty
  io := ⟨fun _ h => match h with
    | .at h => answer h
    | .highest => .error .rpc⟩

/-- The state that trusts the root. -/
def initial : State := State.new (MemoryStore.new.insert root .trusted)

end Chain

/-! ## A peer's answer replaces the trusted block -/

section Downgrade

variable {self : LightClient} {fuel : Nat} {target : Height} {st : State} {r b : LightBlock}

/-- A peer that answers the request for the target with a block at the height of the trusted block
makes the run store that block in the trusted block's place, as failed. -/
theorem verifyToTarget_fails_trusted_block {pv : PredicateVerifier} {P : Prost}
    (hver : self.verifier = pv.verifyUpdateHeader P)
    (hr : st.lightStore.highestTrustedOrVerifiedBefore target = some r)
    (hnf : st.lightStore.getNonFailed target = none)
    (hw : isWithinTrustPeriod r self.options.trustingPeriod (self.clock.now 0) = true)
    (hio : self.io.fetchLightBlock 0 (.at target) = .ok b) (hp : b.provider = self.peer)
    (hbr : b.height = r.height) (hfuel : 0 < fuel) :
    ∃ e st', self.verifyToTarget fuel target st =
        some (.done (.error (.invalidLightBlock e), st')) ∧
      st'.lightStore.store.lookup r.height = some ⟨b, .failed⟩ := by
  obtain ⟨st₁, -, hR⟩ := reached_of_fetch hr hnf hw hio hp
  -- the verifier finds a block that is not above the trusted one invalid
  have hbound : r.height.value + 1 < i64Bound :=
    lt_of_le_of_lt (Height.lt_iff.mp hR.below) target.lt
  obtain ⟨e, hv⟩ : ∃ e, pv.verifyUpdateHeader P b.asUntrustedState r.asTrustedState self.options
      (self.clock.now 0) = some (.invalid e) :=
    PredicateVerifier.verifyUpdateHeader_of_not_monotonic (le_of_eq hbr) hbound
  have hstep := verifyForwardStep_of_invalid hR (by rw [hver]; exact hv)
  have hf : self.verifyForward fuel target st = some (.done (.error (.invalidLightBlock e),
      { st₁ with lightStore := (st₁.lightStore.insert b .unverified).update b .failed })) := by
    obtain ⟨f, rfl⟩ := Nat.exists_eq_add_of_lt hfuel
    exact Loop.run_succ_of_done hstep
  refine ⟨e, _, (verifyToTarget_eq_some_of_forward
    (MemoryStore.getTrustedOrVerified_eq_none_of_getNonFailed hnf) hr).mpr ⟨hf, by simp⟩, ?_⟩
  rw [← hbr]
  exact MemoryStore.lookup_insert_self

/-- The peer of the chain answers the request for height two with the trusted root: the root, trusted
before the run, is failed after it. -/
theorem verifyToTarget_fails_trusted_block_on_chain :
    Chain.initial.lightStore.store.lookup Chain.root.height = some ⟨Chain.root, .trusted⟩ ∧
      ∃ e st', (Chain.client fun _ => .ok Chain.root).verifyToTarget 1 ⟨2, by decide⟩ Chain.initial =
          some (.done (.error (.invalidLightBlock e), st')) ∧
        st'.lightStore.store.lookup Chain.root.height = some ⟨Chain.root, .failed⟩ :=
  ⟨by decide +kernel, verifyToTarget_fails_trusted_block rfl (by decide +kernel) (by decide +kernel)
    (by decide +kernel) rfl rfl rfl (by decide)⟩

end Downgrade

/-! ## A later answer breaks the scheduler's contract -/

section Schedule

variable {self : LightClient} {fuel : Nat} {target : Height} {st : State} {r b : LightBlock}

/-- A peer that answers the request for the height right above the trusted block with a later block
that lacks trust makes `basic_bisecting_schedule` schedule the target again, the midpoint of the
trusted and the current height, which breaks `valid_schedule`: the run panics. -/
theorem verifyToTarget_breaks_validSchedule {pv : PredicateVerifier} {P : Prost}
    {t : VotingPowerTally}
    (hver : self.verifier = pv.verifyUpdateHeader P) (hsch : self.scheduler = basicBisectingSchedule)
    (hr : st.lightStore.highestTrustedOrVerifiedBefore target = some r)
    (hnf : st.lightStore.getNonFailed target = none)
    (hadj : target.value = r.height.value + 1)
    (hw : isWithinTrustPeriod r self.options.trustingPeriod (self.clock.now 0) = true)
    (hio : self.io.fetchLightBlock 0 (.at target) = .ok b) (hp : b.provider = self.peer)
    (hnet : pv.verifyUpdateHeader P b.asUntrustedState r.asTrustedState self.options
      (self.clock.now 0) = some (.notEnoughTrust t))
    (hfuel : 0 < fuel) :
    self.verifyToTarget fuel target st = none := by
  obtain ⟨st₁, hst, hR⟩ := reached_of_fetch hr hnf hw hio hp
  have hstep := verifyForwardStep_of_notEnoughTrust hR (by rw [hver]; exact hnet)
  -- the block that lacks trust lies above the target, so the root stays the highest trusted block
  have hb : target < b.height := by
    have h₂ : r.height.value + 2 ≤ b.height.value :=
      PredicateVerifier.verifyUpdateHeader_notEnoughTrust_height hnet
    rw [Height.lt_iff]
    omega
  have hT : ((st₁.lightStore.insert b .unverified).update b .unverified).highestTrustedOrVerifiedBefore
      target = some r := by
    rw [MemoryStore.update, MemoryStore.highestTrustedOrVerifiedBefore_insert_of_lt hb,
      MemoryStore.highestTrustedOrVerifiedBefore_insert_of_lt hb, hst, hr]
  -- neither the target nor a midpoint strictly below the current height is scheduled
  have hsched : schedule self.scheduler ((st₁.lightStore.insert b .unverified).update b .unverified)
      target target = none := by
    rw [hsch, schedule_of_valid (fun _ h => validSchedule_of_basicBisectingSchedule h) hT,
      Option.eq_none_iff_forall_ne_some]
    intro c hc
    rcases (basicBisectingSchedule_eq_some hT).mp hc with ⟨heq, -⟩ | ⟨-, h₂, -⟩
    · exact ne_of_lt hR.below heq
    · omega
  have hnone : self.verifyForwardStep target 0 target st = none := by
    rw [hstep]
    exact congrArg (Option.map _) hsched
  apply verifyToTarget_eq_none_of_forward
    (MemoryStore.getTrustedOrVerified_eq_none_of_getNonFailed hnf) hr
  obtain ⟨f, rfl⟩ := Nat.exists_eq_add_of_lt hfuel
  exact Loop.run_succ_of_none hnone

/-- The peer of the chain answers the request for height two with the block at height three. -/
theorem verifyToTarget_breaks_validSchedule_on_chain :
    (Chain.client fun _ => .ok Chain.block3).verifyToTarget 1 ⟨2, by decide⟩ Chain.initial = none :=
  verifyToTarget_breaks_validSchedule (r := Chain.root) (t := .new 1 .oneThird) rfl rfl
    (by decide +kernel) (by decide +kernel) rfl (by decide +kernel) rfl rfl (by decide +kernel)
    (by decide)

/-- `basic_bisecting_schedule` against its own postcondition, over the whole range between the
trusted height and the target: from the height right above the trusted one, `midpoint` rounds up to
that height, which case ii) of `valid_schedule` refuses, so the contract panics; from every other
height it returns a height that `valid_schedule` accepts. -/
theorem basicBisectingSchedule_fails_one_above_trusted {ls : MemoryStore} {t : LightBlock}
    {current : Height} (hT : ls.highestTrustedOrVerifiedBefore target = some t)
    (hlo : t.height ≤ current) (hhi : current ≤ target) :
    (basicBisectingSchedule ls current target = none ↔ current.value = t.height.value + 1) ∧
      (∀ h, basicBisectingSchedule ls current target = some h →
        validSchedule h target current ls = some true) ∧
      (current.value = t.height.value + 1 →
        midpoint t.height current = some current ∧
          validSchedule current target current ls = some false) :=
  ⟨basicBisectingSchedule_eq_none_iff hT hlo hhi,
    fun _ h => validSchedule_of_basicBisectingSchedule h,
    fun hc => ⟨midpoint_of_value_eq_succ hc, validSchedule_current_of_value_eq_succ hT hc hhi⟩⟩

/-- Above the chain's trusted root at height one, scheduling from height two towards height three
panics. -/
theorem basicBisectingSchedule_fails_above_chain_root :
    basicBisectingSchedule Chain.initial.lightStore ⟨2, by decide⟩ ⟨3, by decide⟩ = none ∧
      validSchedule ⟨2, by decide⟩ ⟨3, by decide⟩ ⟨2, by decide⟩ Chain.initial.lightStore =
        some false := by
  have hT : Chain.initial.lightStore.highestTrustedOrVerifiedBefore ⟨3, by decide⟩ =
      some Chain.root := by
    decide +kernel
  obtain ⟨hnone, -, hmid⟩ := basicBisectingSchedule_fails_one_above_trusted hT
    (show Chain.root.height ≤ ⟨2, by decide⟩ by decide +kernel) (by decide)
  exact ⟨hnone.mpr rfl, (hmid rfl).2⟩

end Schedule

/-! ## The trace after bisection -/

section Trace

variable {self : LightClient} {pv : PredicateVerifier} {P : Prost} {n : Nat} {target c c' : Height}
  {st st' : State} {r : LightBlock} {s : Status}

/-- A block trusted or verified at or below the target is at most as high as the highest such
block, and is that block if it is as high. -/
theorem le_of_highestTrustedOrVerifiedBefore {ls : MemoryStore} {tb : LightBlock}
    (hroot : ls.store.lookup r.height = some ⟨r, s⟩) (hs : .verified ≤ s) (hle : r.height ≤ target)
    (hT : ls.highestTrustedOrVerifiedBefore target = some tb) :
    r.height ≤ tb.height ∧ (tb.height = r.height → tb = r) := by
  have hb := MemoryStore.highestTrustedOrVerifiedBefore_eq_some_iff.mp hT
  refine ⟨hb.max _ _ hroot hs hle, fun heq => ?_⟩
  obtain ⟨s', -, hl⟩ := hb.mem
  rw [heq, hroot] at hl
  simp only [Option.some.injEq, StoreEntry.mk.injEq] at hl
  exact hl.1.symm

/-- What `basic_bisecting_schedule` returns from a current height above a trusted block: a height
above it, and the target again only once a higher block is the highest trusted one. -/
theorem schedule_above_root (hsch : self.scheduler = basicBisectingSchedule) {ls : MemoryStore}
    (hroot : ls.store.lookup r.height = some ⟨r, s⟩) (hs : .verified ≤ s)
    (hrt : r.height < target) (hc : r.height < c) (hct : c ≤ target)
    (h : schedule self.scheduler ls c target = some c') :
    r.height < c' ∧ (c' = target → ls.highestTrustedOrVerifiedBefore target ≠ some r) := by
  cases hT : ls.highestTrustedOrVerifiedBefore target with
  | none =>
    exact absurd hrt.le (MemoryStore.highestTrustedOrVerifiedBefore_eq_none_iff.mp hT _ _ hroot hs)
  | some tb =>
    obtain ⟨hrtb, -⟩ := le_of_highestTrustedOrVerifiedBefore hroot hs hrt.le hT
    rw [hsch, schedule_of_valid (fun _ h => validSchedule_of_basicBisectingSchedule h) hT] at h
    rcases (basicBisectingSchedule_eq_some hT).mp h with ⟨htc, rfl⟩ | ⟨-, h₂, -, hv⟩
    · -- the current height is trusted, so it is not the root's: the target is next
      refine ⟨hrt, fun _ heq => ?_⟩
      obtain rfl : tb = r := Option.some.inj heq
      exact ne_of_lt hc htc
    · -- a midpoint strictly between the trusted and the current height
      simp only [Height.lt_iff, Height.le_iff] at hrtb hct ⊢
      refine ⟨by omega, ?_⟩
      rintro rfl
      omega

/-- What a run keeps once its first iteration found the target lacking trust against the root `r`,
stored with status `s`: the root's entry is untouched, the current height is above the root, the
target's trace does not hold the root's height, and the run is back at the target only once a block
above the root is the highest trusted one. -/
structure RootUntraced (target : Height) (r : LightBlock) (s : Status) (c : Height) (st : State) :
    Prop where
  root : st.lightStore.store.lookup r.height = some ⟨r, s⟩
  above : r.height < c
  untraced : r.height ∉ st.traced target
  moved : c = target → st.lightStore.highestTrustedOrVerifiedBefore target ≠ some r

/-- An iteration that goes round from a height above the root, with the root untraced, keeps the
invariant, unless it accepted the target against the root. -/
theorem rootUntraced_of_next (hver : self.verifier = pv.verifyUpdateHeader P)
    (hsch : self.scheduler = basicBisectingSchedule)
    (hroot : st.lightStore.store.lookup r.height = some ⟨r, s⟩) (hs : .verified ≤ s)
    (hrt : r.height < target) (habove : r.height < c) (huntraced : r.height ∉ st.traced target)
    (h : self.verifyForwardStep target n c st = some (.next (c', st'))) :
    RootUntraced target r s c' st' ∨
      (c = target ∧ ∃ st₁ cb status st₂, self.Reached target n c st r st₁ cb status st₂ ∧
        self.verifier cb.asUntrustedState r.asTrustedState self.options (self.clock.now n) =
          some .success) := by
  obtain ⟨tb, st₁, cb, status, st₂, hR, hcase⟩ := verifyForwardStep_eq_next.mp h
  obtain ⟨hrtb, htbr⟩ := le_of_highestTrustedOrVerifiedBefore hroot hs hrt.le hR.trusted
  have hct : c ≤ target := State.le_of_traceBlock hR.trace
  -- the verifier accepts, or finds lacking trust, only blocks above the trusted one
  have hcb : tb.height < cb.height := by
    rcases hcase with ⟨hv, -⟩ | ⟨⟨t, hv⟩, -⟩
    · rw [hver] at hv
      exact PredicateVerifier.verifyUpdateHeader_success_height hv
    · rw [hver] at hv
      have h₂ : tb.height.value + 2 ≤ cb.height.value :=
        PredicateVerifier.verifyUpdateHeader_notEnoughTrust_height hv
      rw [Height.lt_iff]
      omega
  have hne : r.height ≠ cb.height := ne_of_lt (lt_of_le_of_lt hrtb hcb)
  have hroot₂ : st₂.lightStore.store.lookup r.height = some ⟨r, s⟩ := by
    rw [lookup_of_getOrFetchBlock hR.fetch hne, State.lightStore_of_traceBlock hR.trace, hroot]
  -- the current height and the target are traced, neither of them the root's
  have huntraced₂ : r.height ∉ st₂.traced target := by
    have htr₂ : st₂.traced target = st₁.traced target := by
      simp only [State.traced, verificationTrace_of_getOrFetchBlock hR.fetch]
    rw [htr₂, State.traced_of_traceBlock hR.trace]
    rintro (hx | ⟨-, hx | ⟨hx, -⟩⟩)
    · exact huntraced hx
    · exact ne_of_lt habove hx
    · exact ne_of_lt hrt hx
  rcases hcase with ⟨hv, htr', hsched⟩ | ⟨-, rfl, hsched⟩
  · -- accepted: the trusted height is traced under the current one
    have hroot' : st'.lightStore.store.lookup r.height = some ⟨r, s⟩ := by
      rw [State.lightStore_of_traceBlock htr']
      exact (MemoryStore.lookup_insert_of_ne hne).trans hroot₂
    obtain ⟨habove', hmoved'⟩ := schedule_above_root hsch hroot' hs hrt habove hct hsched
    by_cases hc : c = target
    · by_cases htb : tb = r
      · subst htb
        exact .inr ⟨hc, st₁, cb, status, st₂, hR, hv⟩
      · refine .inl ⟨hroot', habove', ?_, hmoved'⟩
        rw [State.traced_of_traceBlock htr']
        rintro (hx | ⟨-, hx | ⟨hx, -⟩⟩)
        · exact huntraced₂ hx
        · exact htb (htbr hx.symm)
        · exact ne_of_lt habove hx
    · refine .inl ⟨hroot', habove', ?_, hmoved'⟩
      rw [State.traced_of_traceBlock htr']
      rintro (hx | ⟨hx, -⟩)
      · exact huntraced₂ hx
      · exact hc hx.symm
  · -- lacking trust: nothing is traced
    have hroot' : (st₂.lightStore.update cb .unverified).store.lookup r.height = some ⟨r, s⟩ :=
      (MemoryStore.lookup_insert_of_ne hne).trans hroot₂
    obtain ⟨habove', hmoved'⟩ := schedule_above_root hsch hroot' hs hrt habove hct hsched
    exact .inl ⟨hroot', habove', huntraced₂, hmoved'⟩

/-- The step lemma: every iteration that goes round keeps the invariant. -/
theorem RootUntraced.step (hver : self.verifier = pv.verifyUpdateHeader P)
    (hsch : self.scheduler = basicBisectingSchedule) (hs : .verified ≤ s) (hrt : r.height < target)
    (hI : RootUntraced target r s c st)
    (h : self.verifyForwardStep target n c st = some (.next (c', st'))) :
    RootUntraced target r s c' st' := by
  rcases rootUntraced_of_next hver hsch hI.root hs hrt hI.above hI.untraced h with
    hI' | ⟨hc, _, _, _, _, hR, -⟩
  · exact hI'
  · exact absurd hR.trusted (hI.moved hc)

/-- The first iteration, which finds the peer's answer at the target lacking trust against the
root, establishes the invariant. -/
theorem rootUntraced_first {b : LightBlock} {t : VotingPowerTally}
    (hver : self.verifier = pv.verifyUpdateHeader P)
    (hsch : self.scheduler = basicBisectingSchedule)
    (hr : st.lightStore.highestTrustedOrVerifiedBefore target = some r)
    (hnf : st.lightStore.getNonFailed target = none)
    (hroot : st.lightStore.store.lookup r.height = some ⟨r, s⟩) (hs : .verified ≤ s)
    (htr : r.height ∉ st.traced target)
    (hio : self.io.fetchLightBlock 0 (.at target) = .ok b)
    (hnet : pv.verifyUpdateHeader P b.asUntrustedState r.asTrustedState self.options
      (self.clock.now 0) = some (.notEnoughTrust t))
    (h : self.verifyForwardStep target 0 target st = some (.next (c', st'))) :
    RootUntraced target r s c' st' := by
  have hrt := height_lt_of_getNonFailed hr hnf
  rcases rootUntraced_of_next hver hsch hroot hs hrt hrt htr h with
    hI | ⟨-, st₁, cb, status, st₂, hR, hv⟩
  · exact hI
  · obtain rfl := fetched_eq_of_getNonFailed hR hnf hio
    rw [hver, hnet] at hv
    cases hv

/-- The iteration that returns a block traces the current height, and the target. -/
theorem untraced_of_done {res : LightBlock} (hrt : r.height ≠ target) (hc : r.height ≠ c)
    (huntraced : r.height ∉ st.traced target)
    (h : self.verifyForwardStep target n c st = some (.done (.ok res, st'))) :
    r.height ∉ st'.traced target := by
  rcases verifyForwardStep_eq_done h with ⟨-, hres, -⟩ | ⟨tb, -, hcase⟩
  · cases hres
  rcases hcase with ⟨-, hres, -⟩ | ⟨-, hres, -⟩ | ⟨htr, -, -⟩ | ⟨st₁, e, -, -, hres⟩ |
    ⟨st₁, cb, status, st₂, e, -, -, -, hres⟩
  · cases hres
  · cases hres
  · rw [State.traced_of_traceBlock htr]
    rintro (hx | ⟨-, hx | ⟨hx, -⟩⟩)
    · exact huntraced hx
    · exact hc hx
    · exact hrt hx
  · cases hres
  · cases hres

/-- Once the first iteration finds the peer's answer at the target lacking trust against the root,
a run that returns a block leaves the root out of the target's trace. -/
theorem getTrace_omits_root_after_bisection {fuel : Nat} {b res : LightBlock}
    {t : VotingPowerTally}
    (hver : self.verifier = pv.verifyUpdateHeader P)
    (hsch : self.scheduler = basicBisectingSchedule)
    (hr : st.lightStore.highestTrustedOrVerifiedBefore target = some r)
    (hnf : st.lightStore.getNonFailed target = none)
    (htr : r.height ∉ st.traced target)
    (hio : self.io.fetchLightBlock 0 (.at target) = .ok b)
    (hnet : pv.verifyUpdateHeader P b.asUntrustedState r.asTrustedState self.options
      (self.clock.now 0) = some (.notEnoughTrust t))
    (hok : self.verifyToTarget fuel target st = some (.done (.ok res, st'))) :
    r ∉ st'.getTrace target := by
  have hrt := height_lt_of_getNonFailed hr hnf
  obtain ⟨s, hs, hroot⟩ := (MemoryStore.highestTrustedOrVerifiedBefore_eq_some_iff.mp hr).mem
  obtain ⟨hf, -⟩ := (verifyToTarget_eq_some_of_forward
    (MemoryStore.getTrustedOrVerified_eq_none_of_getNonFailed hnf) hr).mp hok
  obtain ⟨m, p, hreach, hdone⟩ := Loop.run_eq_done hf
  -- the iteration that returned is at a height above the root, with the root untraced
  have hlast : r.height < p.1 ∧ r.height ∉ p.2.traced target := by
    cases hreach with
    | refl => exact ⟨hrt, htr⟩
    | step h₀ hreach =>
      have hI := hreach.inv (fun _ q => RootUntraced target r s q.1 q.2)
        (fun _ _ _ hI h => hI.step hver hsch hs hrt h)
        (rootUntraced_first hver hsch hr hnf hroot hs htr hio hnet h₀)
      exact ⟨hI.above, hI.untraced⟩
  intro hmem
  exact untraced_of_done (ne_of_lt hrt) (ne_of_lt hlast.1) hlast.2 hdone
    (State.mem_getTrace.mp hmem).1

/-- With the chain's honest peer, a run to height three finds block three lacking trust against the
root, accepts block two against the root and block three against block two, and returns block
three; the trace of height three holds block two, and not the root. -/
theorem getTrace_omits_root_on_chain :
    ∃ st', (Chain.client Chain.honest).verifyToTarget 4 ⟨3, by decide⟩ Chain.initial =
        some (.done (.ok Chain.block3, st')) ∧
      Chain.block2 ∈ st'.getTrace ⟨3, by decide⟩ ∧ Chain.root ∉ st'.getTrace ⟨3, by decide⟩ := by
  -- the run is computed; the trace is read through its heights, since sorting does not reduce
  have hrun : (match (Chain.client Chain.honest).verifyToTarget 4 ⟨3, by decide⟩ Chain.initial with
      | some (.done (.ok b, st')) =>
        decide (b = Chain.block3 ∧ Chain.block2.height ∈ st'.traced ⟨3, by decide⟩ ∧
          st'.lightStore.getTrustedOrVerified Chain.block2.height = some Chain.block2)
      | some (.done (.error _, _)) | some (.next _) | none => false) = true := by
    decide +kernel
  split at hrun
  · next b st' heq =>
    obtain ⟨rfl, htraced, hstored⟩ := of_decide_eq_true hrun
    refine ⟨st', heq, State.mem_getTrace.mpr ⟨htraced,
      MemoryStore.getTrustedOrVerified_eq_some_iff.mp hstored⟩, ?_⟩
    exact getTrace_omits_root_after_bisection (r := Chain.root) (t := .new 1 .oneThird) rfl rfl
      (by decide +kernel) (by decide +kernel) (by decide +kernel) rfl (by decide +kernel) heq
  all_goals cases hrun

end Trace

end LightClient

end Tendermint
