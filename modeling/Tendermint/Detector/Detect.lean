import Tendermint.Detector.Examine
import Tendermint.LightClient.Forward

/-!
# Detecting a divergence

`detect.rs` and `conflict.rs` of the light client detector. `detect_divergence` asks a witness for
the block at the height of the last block of the primary's trace and compares the two hashes
(`compare_new_header_with_witness`). Equal hashes are no divergence. A block of another hash is a
conflict. `gather_evidence_from_conflicting_headers` then walks the primary's trace with the
witness as the source, to the bifurcation point, and forms the evidence against the primary from
the primary's block there and the witness's trace. With a primary to ask, it walks the witness's
trace back with the primary as the source and forms the evidence against the witness.

`check_against_witness` classifies a failed request by the error's kind: an I/O error makes the
witness a bad one. A witness whose head is below the primary's height should instead take the
branch for `HeightTooHigh`, which waits `2 * max_clock_drift + max_block_lag` and compares times.
But `Provider::fetch_light_block` calls the light client's `get_or_fetch_block`, whose only error is
the I/O error of the peer (an RPC error of a height past the peer's head is the I/O error
`IoError::HeightTooHigh`; the light client's `HeightTooHigh` comes only from
`Instance::get_or_fetch_block`). So that branch is never taken, and neither is the one for any
other error. The comparison is exactly the witness's block or a bad witness
(`compareNewHeaderWithWitness_run`).
-/

namespace Tendermint

namespace Detector

open Verifier LightClient Rust

/-! ## Gathering the evidence -/

/-- `GatheredEvidence`. -/
structure GatheredEvidence where
  witnessTrace : Trace
  againstPrimary : LightClientAttackEvidence
  againstWitness : Option LightClientAttackEvidence

/-- `gather_evidence_from_conflicting_headers`: the evidence against the primary, with the witness
as the source of truth, and, given a primary, the evidence against the witness, with the primary as
the source of truth. The check of the two rounds only logs. -/
def gatherEvidenceFromConflictingHeaders (H : MerkleHash) (P : Prost) (fuel : Nat)
    (primary : Option Provider) (witness : Provider) (primaryTrace : Trace)
    (challengingBlock : LightBlock) : ExceptT ErrorDetail Option GatheredEvidence := do
  let (witnessTrace, primaryBlock) ←
    examineConflictingHeaderAgainstTrace H P fuel primaryTrace challengingBlock witness
  let commonBlock := witnessTrace.first
  let trustedBlock := witnessTrace.last
  let evidenceAgainstPrimary ← ExceptT.lift (makeEvidence primaryBlock trustedBlock commonBlock)
  match primary with
  | none => pure ⟨witnessTrace, evidenceAgainstPrimary, none⟩
  | some primary => do
    let (primaryTrace, witnessBlock) ←
      examineConflictingHeaderAgainstTrace H P fuel witnessTrace primaryBlock primary
    let commonBlock := primaryTrace.first
    let trustedBlock := primaryTrace.last
    let evidenceAgainstWitness ←
      ExceptT.lift (makeEvidence witnessBlock trustedBlock commonBlock)
    pure ⟨witnessTrace, evidenceAgainstPrimary, some evidenceAgainstWitness⟩

/-! ## Comparing with a witness -/

/-- `CompareError`. -/
inductive CompareError
  | conflictingHeaders (lightBlock : LightBlock)
  | badWitness
  | other (e : LightClient.Error)

/-- The light client's `ErrorDetail::is_io`. -/
def isIo : LightClient.Error → Bool
  | .io _ => true
  | _ => false

/-- The light client's `ErrorDetail::is_height_too_high`. -/
def isHeightTooHigh : LightClient.Error → Bool
  | .heightTooHigh .. => true
  | _ => false

/-- `2 * max_clock_drift + max_block_lag`, whose `Duration` arithmetic panics past the largest
duration. -/
def waitTime (maxClockDrift maxBlockLag : Duration) : Option Duration :=
  if h : 2 * maxClockDrift.nanos + maxBlockLag.nanos < 2 ^ 64 * 10 ^ 9 then
    some ⟨2 * maxClockDrift.nanos + maxBlockLag.nanos, h⟩
  else none

/-- The branch of `check_against_witness` for a witness whose head is below the primary's height:
the block at the height or the latest one, and, after the wait, once more. A latest block not
before the primary's is a conflict. -/
def checkLaggingWitness (sh : SignedHeader) (witness : Provider)
    (maxClockDrift maxBlockLag : Duration) : Option (Except CompareError LightBlock) :=
  match witness.getTargetBlockOrLatest 0 sh.header.height with
  | .error _ => pure (.error .badWitness)
  | .ok (.target lightBlock) => pure (.ok lightBlock)
  | .ok (.latest lightBlock) =>
    if ¬ lightBlock.time < sh.header.time then
      pure (.error (.conflictingHeaders lightBlock))
    else do
      -- `thread::sleep(wait_time)`
      let _ ← waitTime maxClockDrift maxBlockLag
      match witness.getTargetBlockOrLatest 1 sh.header.height with
      | .error _ => pure (.error .badWitness)
      | .ok (.target lightBlock) => pure (.ok lightBlock)
      | .ok (.latest lightBlock) =>
        if ¬ lightBlock.time < sh.header.time then
          pure (.error (.conflictingHeaders lightBlock))
        else pure (.error .badWitness)

/-- `check_against_witness`. -/
def checkAgainstWitness (sh : SignedHeader) (witness : Provider)
    (maxClockDrift maxBlockLag : Duration) : Option (Except CompareError LightBlock) := do
  match ← (witness.fetchLightBlock sh.header.height).run with
  | .ok lightBlock => pure (.ok lightBlock)
  | .error e =>
    if isIo e then pure (.error .badWitness)
    else if isHeightTooHigh e then checkLaggingWitness sh witness maxClockDrift maxBlockLag
    else pure (.error (.other e))

/-- `compare_new_header_with_witness`, where `Header::hash` hashes with the default hasher `D`. -/
def compareNewHeaderWithWitness (D : MerkleHash) (P : Prost) (newHeader : SignedHeader)
    (witness : Provider) (maxClockDrift maxBlockLag : Duration) :
    ExceptT CompareError Option Unit := do
  let lightBlock ← ExceptT.mk (checkAgainstWitness newHeader witness maxClockDrift maxBlockLag)
  if lightBlock.signedHeader.header.hashWith D P ≠ newHeader.header.hashWith D P then
    throw (.conflictingHeaders lightBlock)
  else pure ()

/-! ## Detecting a divergence -/

/-- `Divergence`. -/
structure Divergence where
  evidence : GatheredEvidence
  challengingBlock : LightBlock

/-- `detect_divergence`. -/
def detectDivergence (H D : MerkleHash) (P : Prost) (fuel : Nat) (primary : Option Provider)
    (witness : Provider) (primaryTrace : List LightBlock) (maxClockDrift maxBlockLag : Duration) :
    ExceptT ErrorDetail Option (Option Divergence) := do
  let primaryTrace ← Rust.result (Trace.new primaryTrace)
  let lastVerifiedHeader := primaryTrace.last.signedHeader
  let result ← ExceptT.lift
    (compareNewHeaderWithWitness D P lastVerifiedHeader witness maxClockDrift maxBlockLag).run
  match result with
  | .ok () => pure none
  | .error (.conflictingHeaders challengingBlock) => do
    let evidence ← gatherEvidenceFromConflictingHeaders H P fuel primary witness primaryTrace
      challengingBlock
    pure (some ⟨evidence, challengingBlock⟩)
  | .error .badWitness => throw .badWitness
  | .error (.other e) => throw (.lightClient e)

/-! ## What the comparison finds -/

/-- A provider's request fails only with the I/O error of its peer: `get_or_fetch_block` raises no
other. -/
theorem Provider.isIo_of_fetchLightBlock {witness : Provider} {height : Height}
    {e : LightClient.Error} (h : (witness.fetchLightBlock height).run = some (.error e)) :
    isIo e = true := by
  unfold Provider.fetchLightBlock at h
  rw [ExceptT.run_mk] at h
  obtain ⟨⟨ret, st'⟩, hget, hret⟩ := Option.map_eq_some_iff.mp h
  rcases getOrFetchBlock_eq_some.mp hget with
    ⟨b, s, -, -, rfl, -⟩ | ⟨-, ⟨e', -, rfl, -⟩ | ⟨b, -, -, rfl, -⟩⟩
  · cases hret
  · cases hret
    rfl
  · cases hret

/-- `check_against_witness` returns the witness's block, and a bad witness when the request fails.
The request fails only with an I/O error, so the branch of a witness that lags behind and that of
any other error are never taken. -/
theorem checkAgainstWitness_eq (sh : SignedHeader) (witness : Provider)
    (maxClockDrift maxBlockLag : Duration) :
    checkAgainstWitness sh witness maxClockDrift maxBlockLag =
      (witness.fetchLightBlock sh.header.height).run.map
        (Except.mapError fun _ => .badWitness) := by
  unfold checkAgainstWitness
  cases hrun : (witness.fetchLightBlock sh.header.height).run with
  | none => rfl
  | some r =>
    cases r with
    | ok lightBlock => rfl
    | error e => simp [Provider.isIo_of_fetchLightBlock hrun, Except.mapError]

/-- `compare_new_header_with_witness`: the witness's block at the header's height compared by hash,
and a bad witness when the request fails. -/
theorem compareNewHeaderWithWitness_run (D : MerkleHash) (P : Prost) (newHeader : SignedHeader)
    (witness : Provider) (maxClockDrift maxBlockLag : Duration) :
    (compareNewHeaderWithWitness D P newHeader witness maxClockDrift maxBlockLag).run =
      (witness.fetchLightBlock newHeader.header.height).run.map fun
        | .ok lightBlock =>
          if lightBlock.signedHeader.header.hashWith D P ≠ newHeader.header.hashWith D P then
            .error (.conflictingHeaders lightBlock)
          else .ok ()
        | .error _ => .error .badWitness := by
  unfold compareNewHeaderWithWitness
  rw [ExceptT.run_bind, ExceptT.run_mk, checkAgainstWitness_eq]
  rcases (witness.fetchLightBlock newHeader.header.height).run with _ | _ | lightBlock
  · rfl
  · rfl
  · by_cases heq : lightBlock.signedHeader.header.hashWith D P = newHeader.header.hashWith D P <;>
      simp [heq, Except.mapError]

/-- `compare_new_header_with_witness` never returns `CompareError::Other`: it returns a bad witness
exactly when the witness's request fails, and otherwise compares the witness's block by hash. -/
theorem witness_comparison_is_by_hash_or_bad_witness (D : MerkleHash) (P : Prost)
    (newHeader : SignedHeader) (witness : Provider) (maxClockDrift maxBlockLag : Duration)
    {r : Except CompareError Unit} :
    (compareNewHeaderWithWitness D P newHeader witness maxClockDrift maxBlockLag).run = some r ↔
      (∃ e, (witness.fetchLightBlock newHeader.header.height).run = some (.error e) ∧
          r = .error .badWitness) ∨
        ∃ lightBlock, (witness.fetchLightBlock newHeader.header.height).run =
            some (.ok lightBlock) ∧
          (lightBlock.signedHeader.header.hashWith D P = newHeader.header.hashWith D P ∧
              r = .ok () ∨
            lightBlock.signedHeader.header.hashWith D P ≠ newHeader.header.hashWith D P ∧
              r = .error (.conflictingHeaders lightBlock)) := by
  rw [compareNewHeaderWithWitness_run]
  rcases (witness.fetchLightBlock newHeader.header.height).run with _ | e | lightBlock
  · simp
  · simp [eq_comm]
  · by_cases heq : lightBlock.signedHeader.header.hashWith D P = newHeader.header.hashWith D P
    · simp [heq, eq_comm]
    · simp [heq]
      exact eq_comm

/-! ## What the gathering finds -/

section Gather

variable {H : MerkleHash} {P : Prost} {fuel : Nat} {primary : Option Provider}
  {witness : Provider} {primaryTrace : Trace} {challengingBlock : LightBlock}

/-- What the gathered evidence holds: the evidence against the primary is made at a bifurcation
point of the primary's trace, where the witness diverges, from the witness's trace; given a
primary, the evidence against the witness is made at a bifurcation point of the witness's trace,
where the primary diverges. -/
def EvidenceGathered (H : MerkleHash) (P : Prost) (primary : Option Provider) (witness : Provider)
    (primaryTrace : Trace) (challengingBlock : LightBlock) (evidence : GatheredEvidence) : Prop :=
  ∃ primaryBlock,
    BifurcationPoint H P witness challengingBlock primaryTrace.blocks primaryBlock ∧
    makeEvidence primaryBlock evidence.witnessTrace.last evidence.witnessTrace.first =
      some evidence.againstPrimary ∧
    (evidence.againstWitness = none ↔ primary = none) ∧
    ∀ p ∈ primary, ∃ witnessBlock,
      BifurcationPoint H P p primaryBlock evidence.witnessTrace.blocks witnessBlock ∧
      ∃ sourceTrace : Trace,
        makeEvidence witnessBlock sourceTrace.last sourceTrace.first = evidence.againstWitness

theorem gatherEvidenceFromConflictingHeaders_eq_ok {evidence : GatheredEvidence}
    (h : (gatherEvidenceFromConflictingHeaders H P fuel primary witness primaryTrace
      challengingBlock).run = some (.ok evidence)) :
    EvidenceGathered H P primary witness primaryTrace challengingBlock evidence := by
  unfold gatherEvidenceFromConflictingHeaders at h
  obtain ⟨⟨witnessTrace, primaryBlock⟩, hexamine, h⟩ := run_bind_eq_ok.mp h
  obtain ⟨againstPrimary, hmake, h⟩ := run_bind_eq_ok.mp h
  rw [run_lift_eq_ok] at hmake
  have hbif := examineConflictingHeaderAgainstTrace_spec hexamine
  cases primary with
  | none =>
    simp only [ExceptT.run_pure, Option.pure_def, Option.some.injEq, Except.ok.injEq] at h
    subst h
    exact ⟨primaryBlock, hbif, hmake, by simp, fun p hp => absurd hp (by simp)⟩
  | some p =>
    -- the walk back along the witness's trace, with the primary as the source
    obtain ⟨⟨sourceTrace, witnessBlock⟩, hexamine', h⟩ := run_bind_eq_ok.mp h
    obtain ⟨againstWitness, hmake', h⟩ := run_bind_eq_ok.mp h
    rw [run_lift_eq_ok] at hmake'
    simp only [ExceptT.run_pure, Option.pure_def, Option.some.injEq, Except.ok.injEq] at h
    subst h
    refine ⟨primaryBlock, hbif, hmake, by simp, fun p' hp' => ?_⟩
    cases Option.mem_some_iff.mp hp'
    exact ⟨witnessBlock, examineConflictingHeaderAgainstTrace_spec hexamine', sourceTrace, hmake'⟩

end Gather

/-! ## What the detection finds -/

section Detect

variable {H D : MerkleHash} {P : Prost} {fuel : Nat} {primary : Option Provider}
  {witness : Provider} {blocks : List LightBlock} {maxClockDrift maxBlockLag : Duration}

/-- `detect_divergence` on blocks that make a trace: a bad witness when the request for the block
at the height of the trace's last block fails, no divergence at a block of the same hash, and the
evidence gathered at a block of another hash. -/
theorem detectDivergence_run_of_trace {trace : Trace} (htrace : Trace.new blocks = .ok trace) :
    (detectDivergence H D P fuel primary witness blocks maxClockDrift maxBlockLag).run =
      (witness.fetchLightBlock trace.last.height).run.bind fun
        | .error _ => some (.error .badWitness)
        | .ok lightBlock =>
          if lightBlock.signedHeader.header.hashWith D P ≠
              trace.last.signedHeader.header.hashWith D P then
            (gatherEvidenceFromConflictingHeaders H P fuel primary witness trace
              lightBlock).run.map (Except.map fun evidence => some ⟨evidence, lightBlock⟩)
          else some (.ok none) := by
  unfold detectDivergence
  have hheight : trace.last.signedHeader.header.height = trace.last.height := rfl
  rw [run_bind_of_ok (by rw [run_result, htrace]), ExceptT.run_bind, ExceptT.run_lift,
    compareNewHeaderWithWitness_run, hheight]
  rcases (witness.fetchLightBlock trace.last.height).run with _ | e | lightBlock
  · rfl
  · rfl
  · by_cases heq : lightBlock.signedHeader.header.hashWith D P =
        trace.last.signedHeader.header.hashWith D P
    · simp [heq]
    · simp [heq, bind_pure_comp]

/-- A divergence that `detect_divergence` reports is a conflict with the witness: the witness's
block at the height of the trace's last block has another hash, and the evidence is gathered at
the bifurcation points of the two traces. -/
theorem detect_divergence_reports_conflicts_at_the_bifurcation_point {divergence : Divergence}
    (h : (detectDivergence H D P fuel primary witness blocks maxClockDrift maxBlockLag).run =
      some (.ok (some divergence))) :
    ∃ trace, Trace.new blocks = .ok trace ∧
      (witness.fetchLightBlock trace.last.height).run = some (.ok divergence.challengingBlock) ∧
      divergence.challengingBlock.signedHeader.header.hashWith D P ≠
        trace.last.signedHeader.header.hashWith D P ∧
      EvidenceGathered H P primary witness trace divergence.challengingBlock
        divergence.evidence := by
  cases htrace : Trace.new blocks with
  | error e =>
    rw [detectDivergence, htrace, run_bind_of_error (run_result _)] at h
    cases h
  | ok trace =>
    rw [detectDivergence_run_of_trace htrace] at h
    refine ⟨trace, rfl, ?_⟩
    rcases hf : (witness.fetchLightBlock trace.last.height).run with _ | e | lightBlock <;>
      rw [hf] at h
    · cases h
    · cases h
    · by_cases heq : lightBlock.signedHeader.header.hashWith D P =
          trace.last.signedHeader.header.hashWith D P
      · simp [heq] at h
      · simp only [heq, ne_eq, not_false_eq_true, if_true, Option.bind_some] at h
        obtain ⟨r, hg, hr⟩ := Option.map_eq_some_iff.mp h
        rcases r with _ | evidence
        · cases hr
        · simp only [Except.map, Except.ok.injEq, Option.some.injEq] at hr
          subst hr
          exact ⟨rfl, heq, gatherEvidenceFromConflictingHeaders_eq_ok hg⟩

end Detect

/-! ### A fork at height two

The primary's trace is the chain's root and block two. The witness's peer answers height one with
the root and height two with a block of its own, at a later time, which the witness's light client
verifies from the root. The header hash of the detector adds the bytes of the leaves, and the
header's leaves hold its time alone, so the two blocks at height two differ in hash. -/

namespace Fork

/-- The witness's block at height two: the chain's, at the time of block three. -/
def block2 : LightBlock :=
  Chain.block (.fromU8 2) Chain.block3.time (Chain.single Chain.validatorA)
    (Chain.single Chain.validatorB) Chain.validatorA

/-- The witness's peer: the chain's root at height one, and its own block above. -/
def answer (h : Height) : Except IoError LightBlock :=
  match h.value with
  | 1 => .ok Chain.root
  | _ => .ok block2

def witness : Provider := ⟨"x", ⟨Chain.client answer, Chain.initial⟩⟩

/-- A hash that adds the bytes of its leaves. -/
def sumHash : MerkleHash where
  emptyHash := List.Vector.replicate 32 0
  leafHash bytes := List.Vector.replicate 32 (bytes.foldl (· + ·) 0)
  innerHash left right := List.Vector.replicate 32 (left.head + right.head)

/-- An encoding of a header's time as its nanoseconds, and of every other field as nothing. -/
def timeProst : Prost := { Prost.empty with timestamp := fun t => [UInt8.ofNat t.nanos.toNat] }

def primaryTrace : Trace := ⟨[Chain.root, Chain.block2], by decide, by decide⟩

def witnessTrace : Trace := ⟨[Chain.root, block2], by decide, by decide⟩

theorem hash_block2_ne : block2.signedHeader.header.hashWith sumHash timeProst ≠
    Chain.block2.signedHeader.header.hashWith sumHash timeProst := by
  decide +kernel

/-- The witness's light client verifies its block at height two from the root, and traces both. -/
theorem verifyToHeightWithState_block2 : ∃ state, witness.verifyToHeightWithState 2 block2.height
    (State.new ((MemoryStore.new.insert Chain.root .trusted).insert block2 .unverified)) =
      some (.done (.ok block2, state)) ∧
    state.getTrace block2.height = [Chain.root, block2] := by
  -- the run is computed; the trace is read before its sort, which does not reduce
  have hrun : ((witness.verifyToHeightWithState 2 block2.height
      (State.new ((MemoryStore.new.insert Chain.root .trusted).insert block2 .unverified))).bind
        Loop.Step.result?).map (fun r => (r.1.toOption,
          (r.2.traced block2.height).filterMap r.2.lightStore.getTrustedOrVerified)) =
      some (some block2, [Chain.root, block2]) := by
    decide +kernel
  obtain ⟨⟨result, state⟩, hret, hfacts⟩ := Option.map_eq_some_iff.mp hrun
  obtain ⟨step, hstep, hresult⟩ := Option.bind_eq_some_iff.mp hret
  rw [Loop.Step.result?_eq_some] at hresult
  simp only [Prod.mk.injEq] at hfacts
  obtain ⟨hok, htrace⟩ := hfacts
  obtain rfl : result = .ok block2 := by
    cases result <;> simp_all [Except.toOption]
  refine ⟨state, hresult ▸ hstep, ?_⟩
  rw [State.getTrace_of_sorted (by rw [htrace]; decide), htrace]

/-- The witness agrees with the root, and its block at height two has another hash than the
primary's, once it has verified it from the root. -/
theorem examineConflictingHeaderAgainstTraceBlock_block2 :
    (examineConflictingHeaderAgainstTraceBlock sumHash timeProst 2 witness Chain.block2 block2
      Chain.root).run = some (.ok (.divergence witnessTrace Chain.block2)) := by
  obtain ⟨state, hverify, hgetTrace⟩ := verifyToHeightWithState_block2
  have hskip : (verifySkipping witness 2 Chain.root block2).run = some (.ok witnessTrace) := by
    rw [verifySkipping_run_of_verified hverify, hgetTrace,
      Trace.new_of_sorted (by decide) (by decide)]
    rfl
  have hsource : (sourceBlockAt witness block2 Chain.block2.height).run = some (.ok block2) := by
    unfold sourceBlockAt
    rw [if_pos (by decide)]
    rfl
  unfold examineConflictingHeaderAgainstTraceBlock compareTraceBlock
  rw [if_neg (by decide), run_bind_of_ok hsource]
  dsimp only
  rw [run_bind_of_ok hskip, if_pos hash_block2_ne]
  rfl

theorem examineConflictingHeaderAgainstTrace_primaryTrace :
    (examineConflictingHeaderAgainstTrace sumHash timeProst 2 primaryTrace block2 witness).run =
      some (.ok (witnessTrace, Chain.block2)) := by
  have hsource : (sourceBlockAt witness block2 Chain.root.height).run = some (.ok Chain.root) := by
    unfold sourceBlockAt
    rw [if_neg (by decide), ExceptT.run_adapt]
    rfl
  have hcheck : (checkTrustedBlock sumHash timeProst witness primaryTrace.first block2).run =
      some (.ok Chain.root) := by
    rw [show primaryTrace.first = Chain.root from rfl]
    unfold checkTrustedBlock
    rw [if_neg (by decide), run_bind_of_ok hsource]
    dsimp only
    rw [if_neg (not_not.mpr rfl)]
    rfl
  unfold examineConflictingHeaderAgainstTrace
  dsimp only
  rw [if_neg (by decide), run_bind_of_ok hcheck]
  show (examineLoop sumHash timeProst 2 witness block2 Chain.root [Chain.block2]).run = _
  rw [examineLoop, run_bind_of_ok examineConflictingHeaderAgainstTraceBlock_block2]
  rfl

/-- The detector, with no primary to ask, finds the fork. -/
theorem detectDivergence_primaryTrace : ∃ divergence,
    (detectDivergence sumHash sumHash timeProst 2 none witness [Chain.root, Chain.block2]
      ⟨0, by decide⟩ ⟨0, by decide⟩).run = some (.ok (some divergence)) := by
  obtain ⟨evidence, hmake⟩ : ∃ evidence,
      makeEvidence Chain.block2 witnessTrace.last witnessTrace.first = some evidence :=
    Option.isSome_iff_exists.mp (by decide +kernel)
  have hgather : (gatherEvidenceFromConflictingHeaders sumHash timeProst 2 none witness
      primaryTrace block2).run = some (.ok ⟨witnessTrace, evidence, none⟩) := by
    unfold gatherEvidenceFromConflictingHeaders
    rw [run_bind_of_ok examineConflictingHeaderAgainstTrace_primaryTrace]
    dsimp only
    rw [run_bind_of_ok (run_lift_eq_ok.mpr hmake)]
    rfl
  have hfetch : (witness.fetchLightBlock primaryTrace.last.height).run = some (.ok block2) := rfl
  have htrace : Trace.new [Chain.root, Chain.block2] = .ok primaryTrace :=
    Trace.new_of_sorted (by decide) (by decide)
  refine ⟨⟨⟨witnessTrace, evidence, none⟩, block2⟩, ?_⟩
  rw [detectDivergence_run_of_trace htrace, hfetch]
  simp only [Option.bind_some]
  rw [if_pos (show _ ≠ primaryTrace.last.signedHeader.header.hashWith _ _ from hash_block2_ne),
    hgather]
  rfl

end Fork

/-- The fork at height two is reported, at the bifurcation point of the primary's trace. -/
theorem detect_divergence_reports_the_fork_at_height_two : ∃ divergence,
    (detectDivergence Fork.sumHash Fork.sumHash Fork.timeProst 2 none Fork.witness
        [Chain.root, Chain.block2] ⟨0, by decide⟩ ⟨0, by decide⟩).run =
      some (.ok (some divergence)) ∧
    ∃ trace, Trace.new [Chain.root, Chain.block2] = .ok trace ∧
      (Fork.witness.fetchLightBlock trace.last.height).run =
        some (.ok divergence.challengingBlock) ∧
      divergence.challengingBlock.signedHeader.header.hashWith Fork.sumHash Fork.timeProst ≠
        trace.last.signedHeader.header.hashWith Fork.sumHash Fork.timeProst ∧
      EvidenceGathered Fork.sumHash Fork.timeProst none Fork.witness trace
        divergence.challengingBlock divergence.evidence := by
  obtain ⟨divergence, h⟩ := Fork.detectDivergence_primaryTrace
  exact ⟨divergence, h, detect_divergence_reports_conflicts_at_the_bifurcation_point h⟩

end Detector

end Tendermint
