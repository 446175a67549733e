import Tendermint.Detector.Evidence
import Tendermint.LightClient.LightClient

/-!
# The bifurcation point of two traces

`examine.rs`, `trace.rs`, `provider.rs` and `error.rs` of the light client detector. A trace is the
list of light blocks a light client used to verify a target, sorted by height and at least two
long. Given the primary's trace and a block of a witness that conflicts with its last block,
`examine_conflicting_header_against_trace` walks the trace with the witness as the source: the
source must agree with the trace's first block, and then, block after block, the source verifies its
own block at the trace block's height from the block it verified before (`verify_skipping`) and
compares the two hashes. The first trace block whose hash differs from the source's is the
bifurcation point; a trace block above the conflicting block's height ends the walk at once (a
forward lunatic attack), once the gap up to the conflicting block is verified.

The walk returns a trace block only at the bifurcation point: every trace block before it agrees
with the source's block at its height, and the source's block at its own height differs from it, or
it lies above the conflicting block without a later time (`examineConflictingHeaderAgainstTrace_spec`).
The proof is the loop's lemma, by induction on the blocks left, which returns the trace block it
stopped at as a split of the blocks it walked (`examineLoop_eq_ok`).

The source is a `Provider`: a light client instance. Its `fetch_light_block` runs
`get_or_fetch_block` on a fresh state, and `verify_skipping` runs its `verify_to_target` on a store
that holds only the trusted and the target block. The light client's loop is run on fuel; a run
that has not returned within its fuel is `none` here, as a panic is, so the results below are about
what the detector returns.
-/

namespace Tendermint

namespace Detector

open Verifier LightClient Rust

/-- The errors of the detector. `Divergence`, which only the detector's caller raises, is left
out. -/
inductive ErrorDetail
  | io (e : IoError)
  | lightClient (e : LightClient.Error)
  | noDivergence
  | noWitnesses
  | badWitness
  | targetBlockLowerThanTrusted (targetHeight trustedHeight : Height)
  | trustedHashDifferentFromSourceFirstBlock (expectedHash gotHash : Hash)
  | traceTooShort (trace : List LightBlock)
  | traceBlockAfterTargetBlock (traceTime targetTime : Time)
  | failedHeaderCrossReferencing

/-! ## Traces -/

/-- `Trace`: light blocks sorted by height, at least two of them. -/
structure Trace where
  blocks : List LightBlock
  two_le_length : 2 ≤ blocks.length
  sorted : blocks.Pairwise fun a b => a.height ≤ b.height

namespace Trace

/-- `Trace::new`: the blocks sorted by height (`sort_unstable_by_key`, of which a stable sort is one
outcome), unless there are fewer than two. -/
def new (trace : List LightBlock) : Except ErrorDetail Trace :=
  if h : trace.length < 2 then .error (.traceTooShort trace)
  else
    .ok ⟨Slice.sortByKey LightBlock.height trace,
      by rw [(Slice.sortByKey_perm _ _).length_eq]; omega, Slice.sortByKey_sorted _ _⟩

/-- Blocks already sorted by height make the trace of those blocks as they are. -/
theorem new_of_sorted {blocks : List LightBlock} (hlen : 2 ≤ blocks.length)
    (hs : blocks.Pairwise fun a b => a.height ≤ b.height) :
    Trace.new blocks = .ok ⟨blocks, hlen, hs⟩ := by
  unfold Trace.new
  rw [dif_neg (by omega)]
  simp only [Except.ok.injEq, Trace.mk.injEq]
  exact Slice.sortByKey_of_sorted hs

theorem blocks_ne_nil (self : Trace) : self.blocks ≠ [] :=
  List.ne_nil_of_length_pos (by have := self.two_le_length; omega)

/-- `Trace::first`, whose `expect` a trace never fails. -/
def first (self : Trace) : LightBlock := self.blocks.head self.blocks_ne_nil

/-- `Trace::last`, whose `expect` a trace never fails. -/
def last (self : Trace) : LightBlock := self.blocks.getLast self.blocks_ne_nil

end Trace

/-! ## Providers -/

/-- `Provider`, without the RPC client through which it reports evidence; its field `instance` is
`inst`, since `instance` is a keyword. -/
structure Provider where
  chainId : String
  inst : Instance

namespace Provider

/-- `Provider::fetch_light_block`: `get_or_fetch_block` on a fresh state. -/
def fetchLightBlock (self : Provider) (height : Height) :
    ExceptT LightClient.Error Option LightBlock :=
  ExceptT.mk ((self.inst.lightClient.getOrFetchBlock 0 height (State.new MemoryStore.new)).map
    fun r => r.1.map Prod.fst)

/-- `Provider::verify_to_height_with_state`, its loop run for at most `fuel` iterations. -/
def verifyToHeightWithState (self : Provider) (fuel : Nat) (height : Height) (state : State) :
    Option (Loop.Step (Height × State) (Except LightClient.Error LightBlock × State)) :=
  self.inst.lightClient.verifyToTarget fuel height state

/-- `Provider::get_target_block_or_latest`, at the `n`-th request to the peer. -/
def getTargetBlockOrLatest (self : Provider) (n : Nat) (height : Height) :
    Except LightClient.Error TargetOrLatest :=
  self.inst.lightClient.getTargetBlockOrLatest n height self.inst.state

end Provider

/-! ## The walk along the trace -/

/-- `ExaminationResult`. -/
inductive ExaminationResult
  | continue (prevVerifiedBlock : LightBlock)
  | divergence (sourceTrace : Trace) (traceBlock : LightBlock)

/-- `verify_skipping`: the source verifies the target from the trusted block, on a store holding
only the two, and the blocks of the target's verification trace are the trace returned. -/
def verifySkipping (source : Provider) (fuel : Nat) (trusted target : LightBlock) :
    ExceptT ErrorDetail Option Trace := do
  let targetHeight := target.height
  let store := (MemoryStore.new.insert trusted .trusted).insert target .unverified
  let state := State.new store
  match ← ExceptT.lift (source.verifyToHeightWithState fuel targetHeight state) with
  | .done (.ok _, state) => Rust.result (Trace.new (state.getTrace targetHeight))
  | .done (.error e, _) => throw (.lightClient e)
  -- the run has not returned within its fuel
  | .next _ => ExceptT.lift none

/-- The source's block at a height: the target block itself at its own height, and otherwise the
one the source fetches. -/
def sourceBlockAt (source : Provider) (targetBlock : LightBlock) (height : Height) :
    ExceptT ErrorDetail Option LightBlock :=
  if height = targetBlock.height then pure targetBlock
  else ExceptT.adapt .lightClient (source.fetchLightBlock height)

/-- `check_trusted_block`: the source's block at the height of the trace's first block, which must
have that block's hash. -/
def checkTrustedBlock (H : MerkleHash) (P : Prost) (source : Provider)
    (trustedBlock targetBlock : LightBlock) : ExceptT ErrorDetail Option LightBlock :=
  -- the sanity check of the forward lunatic case
  if targetBlock.height < trustedBlock.height ∧ targetBlock.time < trustedBlock.time then
    throw (.traceBlockAfterTargetBlock trustedBlock.time targetBlock.time)
  else do
    let sourceBlock ← sourceBlockAt source targetBlock trustedBlock.height
    let sourceBlockHash := sourceBlock.signedHeader.header.hashWith H P
    let traceBlockHash := trustedBlock.signedHeader.header.hashWith H P
    if sourceBlockHash ≠ traceBlockHash then
      throw (.trustedHashDifferentFromSourceFirstBlock sourceBlockHash traceBlockHash)
    else pure sourceBlock

/-- The part of `examine_conflicting_header_against_trace_block` after the forward lunatic case:
the source verifies its block at the trace block's height from the block it verified before, and
the two hashes are compared. -/
def compareTraceBlock (H : MerkleHash) (P : Prost) (fuel : Nat) (source : Provider)
    (traceBlock targetBlock prevVerifiedBlock : LightBlock) :
    ExceptT ErrorDetail Option ExaminationResult := do
  let sourceBlock ← sourceBlockAt source targetBlock traceBlock.height
  let sourceBlockHash := sourceBlock.signedHeader.header.hashWith H P
  let traceBlockHash := traceBlock.signedHeader.header.hashWith H P
  let sourceTrace ← verifySkipping source fuel prevVerifiedBlock sourceBlock
  if sourceBlockHash ≠ traceBlockHash then pure (.divergence sourceTrace traceBlock)
  else pure (.continue sourceBlock)

/-- `examine_conflicting_header_against_trace_block`: a trace block above the target ends the walk
once the gap to the target is verified; any other is compared with the source's block. -/
def examineConflictingHeaderAgainstTraceBlock (H : MerkleHash) (P : Prost) (fuel : Nat)
    (source : Provider) (traceBlock targetBlock prevVerifiedBlock : LightBlock) :
    ExceptT ErrorDetail Option ExaminationResult :=
  if targetBlock.height < traceBlock.height then
    if targetBlock.time < traceBlock.time then
      throw (.traceBlockAfterTargetBlock traceBlock.time targetBlock.time)
    else if prevVerifiedBlock.height ≠ targetBlock.height then do
      let sourceTrace ← verifySkipping source fuel prevVerifiedBlock targetBlock
      pure (.divergence sourceTrace traceBlock)
    else compareTraceBlock H P fuel source traceBlock targetBlock prevVerifiedBlock
  else compareTraceBlock H P fuel source traceBlock targetBlock prevVerifiedBlock

/-- The loop of `examine_conflicting_header_against_trace` over the trace's blocks after the
first, from the block the source verified last. -/
def examineLoop (H : MerkleHash) (P : Prost) (fuel : Nat) (source : Provider)
    (targetBlock : LightBlock) : LightBlock → List LightBlock →
    ExceptT ErrorDetail Option (Trace × LightBlock)
  -- the end of the trace: the contract of the function was broken
  | _, [] => throw .noDivergence
  | previouslyVerifiedBlock, traceBlock :: rest => do
    match ← examineConflictingHeaderAgainstTraceBlock H P fuel source traceBlock targetBlock
        previouslyVerifiedBlock with
    | .continue prevVerifiedBlock => examineLoop H P fuel source targetBlock prevVerifiedBlock rest
    | .divergence sourceTrace traceBlock => pure (sourceTrace, traceBlock)

/-- `examine_conflicting_header_against_trace`. -/
def examineConflictingHeaderAgainstTrace (H : MerkleHash) (P : Prost) (fuel : Nat) (trace : Trace)
    (targetBlock : LightBlock) (source : Provider) :
    ExceptT ErrorDetail Option (Trace × LightBlock) :=
  let trustedBlock := trace.first
  if targetBlock.height < trustedBlock.height then
    throw (.targetBlockLowerThanTrusted targetBlock.height trustedBlock.height)
  else do
    let previouslyVerifiedBlock ← checkTrustedBlock H P source trustedBlock targetBlock
    examineLoop H P fuel source targetBlock previouslyVerifiedBlock trace.blocks.tail

/-! ## Where the walk stops -/

section Spec

variable (H : MerkleHash) (P : Prost) (source : Provider) (targetBlock : LightBlock)

/-- The source agrees with a trace block: its block at the trace block's height has the trace
block's hash. -/
def SourceAgrees (traceBlock : LightBlock) : Prop :=
  ∃ sourceBlock, (sourceBlockAt source targetBlock traceBlock.height).run = some (.ok sourceBlock) ∧
    sourceBlock.signedHeader.header.hashWith H P = traceBlock.signedHeader.header.hashWith H P

/-- A trace block the walk may stop at: the source's block at its height has another hash, or it
lies above the target block, at a time not after the target's. -/
def SourceDiverges (traceBlock : LightBlock) : Prop :=
  (targetBlock.height < traceBlock.height ∧ traceBlock.time ≤ targetBlock.time) ∨
    ∃ sourceBlock, (sourceBlockAt source targetBlock traceBlock.height).run =
        some (.ok sourceBlock) ∧
      sourceBlock.signedHeader.header.hashWith H P ≠ traceBlock.signedHeader.header.hashWith H P

/-- A block of a trace the walk may stop at: the source agrees with the trace's blocks before it,
the first among them, and diverges at it. -/
def BifurcationPoint (blocks : List LightBlock) (traceBlock : LightBlock) : Prop :=
  ∃ pre post, blocks = pre ++ traceBlock :: post ∧ pre ≠ [] ∧
    (∀ b ∈ pre, SourceAgrees H P source targetBlock b) ∧
    SourceDiverges H P source targetBlock traceBlock

variable {H P source targetBlock} {fuel : Nat}

/-- `verify_skipping` returns the trace of the target, once the source's run has verified it. -/
theorem verifySkipping_run_of_verified {trusted target verified : LightBlock} {state : State}
    (h : source.verifyToHeightWithState fuel target.height
      (State.new ((MemoryStore.new.insert trusted .trusted).insert target .unverified)) =
        some (.done (.ok verified, state))) :
    (verifySkipping source fuel trusted target).run =
      some (Trace.new (state.getTrace target.height)) := by
  unfold verifySkipping
  rw [run_bind_of_ok (run_lift_eq_ok.mpr h)]
  rfl

/-- What the comparison with the source's block can return: a divergence at a block of another
hash, or the source's block to go on from. -/
theorem compareTraceBlock_eq_ok {traceBlock prev : LightBlock} {r : ExaminationResult}
    (h : (compareTraceBlock H P fuel source traceBlock targetBlock prev).run = some (.ok r)) :
    ∃ sourceBlock, (sourceBlockAt source targetBlock traceBlock.height).run =
        some (.ok sourceBlock) ∧
      ((sourceBlock.signedHeader.header.hashWith H P ≠
          traceBlock.signedHeader.header.hashWith H P ∧ ∃ t, r = .divergence t traceBlock) ∨
        (sourceBlock.signedHeader.header.hashWith H P =
          traceBlock.signedHeader.header.hashWith H P ∧ r = .continue sourceBlock)) := by
  unfold compareTraceBlock at h
  obtain ⟨sourceBlock, hsource, h⟩ := run_bind_eq_ok.mp h
  obtain ⟨sourceTrace, -, h⟩ := run_bind_eq_ok.mp h
  refine ⟨sourceBlock, hsource, ?_⟩
  by_cases heq : sourceBlock.signedHeader.header.hashWith H P =
      traceBlock.signedHeader.header.hashWith H P
  · simp only [heq, ne_eq, not_true_eq_false, if_false, ExceptT.run_pure, Option.pure_def,
      Option.some.injEq, Except.ok.injEq] at h
    exact .inr ⟨heq, h.symm⟩
  · simp only [heq, ne_eq, not_false_eq_true, if_true, ExceptT.run_pure, Option.pure_def,
      Option.some.injEq, Except.ok.injEq] at h
    exact .inl ⟨heq, sourceTrace, h.symm⟩

/-- What one step of the walk can return: a divergence at a trace block above the target, at a time
not after the target's, or what the comparison with the source's block returns. -/
theorem examineConflictingHeaderAgainstTraceBlock_eq_ok {traceBlock prev : LightBlock}
    {r : ExaminationResult}
    (h : (examineConflictingHeaderAgainstTraceBlock H P fuel source traceBlock targetBlock
      prev).run = some (.ok r)) :
    (targetBlock.height < traceBlock.height ∧ traceBlock.time ≤ targetBlock.time ∧
        ∃ t, r = .divergence t traceBlock) ∨
      (compareTraceBlock H P fuel source traceBlock targetBlock prev).run = some (.ok r) := by
  unfold examineConflictingHeaderAgainstTraceBlock at h
  by_cases habove : targetBlock.height < traceBlock.height
  · rw [if_pos habove] at h
    by_cases hlater : targetBlock.time < traceBlock.time
    · rw [if_pos hlater] at h
      simp at h
    · rw [if_neg hlater] at h
      split at h
      · -- the gap up to the target is verified, and the walk stops
        obtain ⟨t, -, h⟩ := run_bind_eq_ok.mp h
        simp only [ExceptT.run_pure, Option.pure_def, Option.some.injEq, Except.ok.injEq] at h
        exact .inl ⟨habove, not_lt.mp hlater, t, h.symm⟩
      · exact .inr h
  · rw [if_neg habove] at h
    exact .inr h

/-- A step of the walk that goes on agrees with the source. -/
theorem sourceAgrees_of_continue {traceBlock prev next : LightBlock}
    (h : (examineConflictingHeaderAgainstTraceBlock H P fuel source traceBlock targetBlock
      prev).run = some (.ok (.continue next))) :
    SourceAgrees H P source targetBlock traceBlock := by
  rcases examineConflictingHeaderAgainstTraceBlock_eq_ok h with ⟨-, -, t, ht⟩ | hc
  · cases ht
  · obtain ⟨sourceBlock, hsource, ⟨-, t, ht⟩ | ⟨heq, -⟩⟩ := compareTraceBlock_eq_ok hc
    · cases ht
    · exact ⟨sourceBlock, hsource, heq⟩

/-- A step of the walk that stops stops at its own trace block, where the source diverges. -/
theorem sourceDiverges_of_divergence {traceBlock prev tb : LightBlock} {t : Trace}
    (h : (examineConflictingHeaderAgainstTraceBlock H P fuel source traceBlock targetBlock
      prev).run = some (.ok (.divergence t tb))) :
    tb = traceBlock ∧ SourceDiverges H P source targetBlock traceBlock := by
  rcases examineConflictingHeaderAgainstTraceBlock_eq_ok h with ⟨habove, hle, t', ht⟩ | hc
  · cases ht
    exact ⟨rfl, .inl ⟨habove, hle⟩⟩
  · obtain ⟨sourceBlock, hsource, ⟨hne, t', ht⟩ | ⟨-, ht⟩⟩ := compareTraceBlock_eq_ok hc
    · cases ht
      exact ⟨rfl, .inr ⟨sourceBlock, hsource, hne⟩⟩
    · cases ht

/-- The loop stops at a trace block where the source diverges, after blocks it agrees with. The
induction is on the blocks left, with the block the source verified last generalized. -/
theorem examineLoop_eq_ok :
    ∀ {prev : LightBlock} {rest : List LightBlock} {sourceTrace : Trace} {traceBlock : LightBlock},
      (examineLoop H P fuel source targetBlock prev rest).run =
          some (.ok (sourceTrace, traceBlock)) →
        ∃ pre post, rest = pre ++ traceBlock :: post ∧
          (∀ b ∈ pre, SourceAgrees H P source targetBlock b) ∧
          SourceDiverges H P source targetBlock traceBlock
  | _, [], _, _, h => by simp [examineLoop] at h
  | prev, b :: rest, sourceTrace, traceBlock, h => by
    rw [examineLoop] at h
    obtain ⟨r, hr, h⟩ := run_bind_eq_ok.mp h
    rcases r with next | ⟨t, tb⟩
    · -- the source agrees with this block, and the walk goes on from the source's block
      obtain ⟨pre, post, hsplit, hpre, hdiv⟩ := examineLoop_eq_ok h
      refine ⟨b :: pre, post, by rw [hsplit, List.cons_append], ?_, hdiv⟩
      intro b' hb'
      rcases List.mem_cons.mp hb' with rfl | hb'
      · exact sourceAgrees_of_continue hr
      · exact hpre b' hb'
    · simp only [ExceptT.run_pure, Option.pure_def, Option.some.injEq, Except.ok.injEq,
        Prod.mk.injEq] at h
      obtain ⟨-, rfl⟩ := h
      obtain ⟨rfl, hdiv⟩ := sourceDiverges_of_divergence hr
      exact ⟨[], rest, rfl, fun _ hb => absurd hb List.not_mem_nil, hdiv⟩

/-- `check_trusted_block` returns the source's block at the first block's height, which agrees. -/
theorem checkTrustedBlock_eq_ok {trustedBlock sourceBlock : LightBlock}
    (h : (checkTrustedBlock H P source trustedBlock targetBlock).run = some (.ok sourceBlock)) :
    (sourceBlockAt source targetBlock trustedBlock.height).run = some (.ok sourceBlock) ∧
      sourceBlock.signedHeader.header.hashWith H P =
        trustedBlock.signedHeader.header.hashWith H P := by
  unfold checkTrustedBlock at h
  split at h
  · simp at h
  obtain ⟨sb, hsource, h⟩ := run_bind_eq_ok.mp h
  by_cases heq : sb.signedHeader.header.hashWith H P = trustedBlock.signedHeader.header.hashWith H P
  · simp only [heq, ne_eq, not_true_eq_false, if_false, ExceptT.run_pure, Option.pure_def,
      Option.some.injEq, Except.ok.injEq] at h
    subst h
    exact ⟨hsource, heq⟩
  · simp [heq] at h

/-- The walk returns a trace block only at the bifurcation point: the trace's blocks before it,
the first among them, agree with the source, and the source diverges at it. -/
theorem examineConflictingHeaderAgainstTrace_spec {trace sourceTrace : Trace}
    {traceBlock : LightBlock}
    (h : (examineConflictingHeaderAgainstTrace H P fuel trace targetBlock source).run =
      some (.ok (sourceTrace, traceBlock))) :
    BifurcationPoint H P source targetBlock trace.blocks traceBlock := by
  unfold examineConflictingHeaderAgainstTrace at h
  dsimp only at h
  split at h
  · simp at h
  obtain ⟨prev, hcheck, h⟩ := run_bind_eq_ok.mp h
  obtain ⟨hsource, hhash⟩ := checkTrustedBlock_eq_ok hcheck
  obtain ⟨pre, post, hsplit, hpre, hdiv⟩ := examineLoop_eq_ok h
  refine ⟨trace.first :: pre, post, ?_, List.cons_ne_nil _ _, ?_, hdiv⟩
  · rw [List.cons_append, ← hsplit]
    exact (List.cons_head_tail trace.blocks_ne_nil).symm
  · intro b hb
    rcases List.mem_cons.mp hb with rfl | hb
    · exact ⟨prev, hsource, hhash⟩
    · exact hpre b hb

/-! ### The errors of the walk -/

/-- The walk raises its source's errors, that of a trace too short, and those of its checks of the
heights, times and hashes: never an I/O error, a bad witness or the detector's other errors. The
loop adds `NoDivergence` when it runs out of blocks. -/
def ErrorDetail.raisedByWalk : ErrorDetail → Bool
  | .lightClient _ | .traceTooShort _ | .targetBlockLowerThanTrusted _ _
  | .trustedHashDifferentFromSourceFirstBlock _ _ | .traceBlockAfterTargetBlock _ _ => true
  | _ => false

variable {e : ErrorDetail}

theorem ErrorDetail.ne_of_raisedByWalk {e' : ErrorDetail} (he : e.raisedByWalk = false)
    (he' : e'.raisedByWalk = true) : e' ≠ e := by
  rintro rfl
  rw [he] at he'
  cases he'

theorem sourceBlockAt_ne_error (he : e.raisedByWalk = false) (height : Height) :
    (sourceBlockAt source targetBlock height).run ≠ some (.error e) := by
  unfold sourceBlockAt
  split
  · simp
  · rw [ExceptT.run_adapt]
    -- the source's errors are those of its light client
    rcases (source.fetchLightBlock height).run with _ | _ | _ <;> simp [Except.mapError]
    exact ErrorDetail.ne_of_raisedByWalk he rfl

theorem verifySkipping_ne_error (he : e.raisedByWalk = false) (trusted target : LightBlock) :
    (verifySkipping source fuel trusted target).run ≠ some (.error e) := by
  unfold verifySkipping
  refine run_bind_ne_error (by simp) fun r _ => ?_
  split
  · -- the trace of the target is too short, or a trace
    unfold Trace.new
    split <;> simp
    exact ErrorDetail.ne_of_raisedByWalk he rfl
  · simpa using ErrorDetail.ne_of_raisedByWalk he rfl
  · simp

theorem compareTraceBlock_ne_error (he : e.raisedByWalk = false) (traceBlock prev : LightBlock) :
    (compareTraceBlock H P fuel source traceBlock targetBlock prev).run ≠ some (.error e) := by
  unfold compareTraceBlock
  refine run_bind_ne_error (sourceBlockAt_ne_error he _) fun sourceBlock _ => ?_
  refine run_bind_ne_error (verifySkipping_ne_error he _ _) fun sourceTrace _ => ?_
  split <;> simp

theorem examineConflictingHeaderAgainstTraceBlock_ne_error (he : e.raisedByWalk = false)
    (traceBlock prev : LightBlock) :
    (examineConflictingHeaderAgainstTraceBlock H P fuel source traceBlock targetBlock prev).run ≠
      some (.error e) := by
  unfold examineConflictingHeaderAgainstTraceBlock
  split
  · split
    · simpa using ErrorDetail.ne_of_raisedByWalk he rfl
    · split
      · exact run_bind_ne_error (verifySkipping_ne_error he _ _) fun _ _ => by simp
      · exact compareTraceBlock_ne_error he _ _
  · exact compareTraceBlock_ne_error he _ _

theorem checkTrustedBlock_ne_error (he : e.raisedByWalk = false) (trustedBlock : LightBlock) :
    (checkTrustedBlock H P source trustedBlock targetBlock).run ≠ some (.error e) := by
  unfold checkTrustedBlock
  split
  · simpa using ErrorDetail.ne_of_raisedByWalk he rfl
  · refine run_bind_ne_error (sourceBlockAt_ne_error he _) fun sourceBlock _ => ?_
    dsimp only
    split
    · simpa using ErrorDetail.ne_of_raisedByWalk he rfl
    · simp

/-- The loop raises the errors of its steps, and `NoDivergence`. The induction is on the blocks
left. -/
theorem examineLoop_ne_error (he : e.raisedByWalk = false) (hn : e ≠ .noDivergence) :
    ∀ {prev : LightBlock} {rest : List LightBlock},
      (examineLoop H P fuel source targetBlock prev rest).run ≠ some (.error e)
  | _, [] => by simpa [examineLoop] using hn.symm
  | prev, b :: rest => by
    rw [examineLoop]
    refine run_bind_ne_error (examineConflictingHeaderAgainstTraceBlock_ne_error he _ _)
      fun r _ => ?_
    rcases r with next | ⟨t, tb⟩
    · exact examineLoop_ne_error he hn
    · simp

/-- The walk raises the errors of its steps, and `NoDivergence`. -/
theorem examineConflictingHeaderAgainstTrace_ne_error (he : e.raisedByWalk = false)
    (hn : e ≠ .noDivergence) (trace : Trace) :
    (examineConflictingHeaderAgainstTrace H P fuel trace targetBlock source).run ≠
      some (.error e) := by
  unfold examineConflictingHeaderAgainstTrace
  dsimp only
  split
  · simpa using ErrorDetail.ne_of_raisedByWalk he rfl
  · exact run_bind_ne_error (checkTrustedBlock_ne_error he _) fun _ _ => examineLoop_ne_error he hn

/-! ### No divergence -/

end Spec

end Detector

end Tendermint
