import Tendermint.Verifier.Predicates

/-!
# The predicate verifier

`verifier.rs`: `PredicateVerifier` runs the predicates in four groups (`verify_validator_sets`,
`validate_against_trusted`, `check_header_is_from_past` and `verify_commit_against_trusted`), and
`verify_update_header` runs the four groups in that order.

Each method returns a `Verdict`. Inside a method, the macro `verdict!` returns early with the verdict
of a failed predicate's `Result` (only `NotEnoughTrust` escapes `Invalid`), and
`ensure_verdict_success!` returns early with any verdict but `Success`; a method that reaches its end
returns `Success`. A method body is therefore modelled in `ExceptT Verdict Option`, whose error is the
early return, and `Verdict.ofBody` runs it to the verdict.

The adjacency of the untrusted header is decided twice, in `validate_against_trusted` and in
`verify_commit_against_trusted`, both times by comparing with `trusted.height.increment()`, which
panics past the last height.
-/

namespace Tendermint

namespace Verifier

open Rust VerificationPredicates

namespace Verdict

/-- A method body run to its verdict: `Success` unless a macro returned early. -/
def ofBody (body : ExceptT Verdict Option Unit) : Option Verdict :=
  body.run.map fun
    | .ok () => success
    | .error verdict => verdict

end Verdict

/-- `verdict!`: a failed predicate ends the method with the verdict of its `Result`. -/
def verdict (result : Option (Except VerificationError Unit)) : ExceptT Verdict Option Unit := do
  let result ← ExceptT.lift result
  match result with
  | .error _ => throw (Verdict.ofResult result)
  | .ok () => pure ()

/-- `ensure_verdict_success!`: any verdict but `Success` ends the method. -/
def ensureVerdictSuccess (verdict : Option Verdict) : ExceptT Verdict Option Unit := do
  let verdict ← ExceptT.lift verdict
  match verdict with
  | .success => pure ()
  | _ => throw verdict

/-- `PredicateVerifier<ProdPredicates, ProvidedVotingPowerCalculator<V>, ProdCommitValidator>`: the
predicates are the trait's default methods, which hash with the Merkle hash of their `Sha256`; the
calculator is given by its signature verifier; the commit validator has no state. -/
structure PredicateVerifier where
  predicates : MerkleHash
  votingPowerCalculator : Signature.Verifier

namespace PredicateVerifier

variable (self : PredicateVerifier) (P : Prost)

/-- `PredicateVerifier::verify_validator_sets`. -/
def verifyValidatorSets (untrusted : UntrustedBlockState) : Option Verdict :=
  Verdict.ofBody do
    verdict (some (validatorSetsMatch self.predicates P untrusted.validators
      untrusted.signedHeader.header.validatorsHash))
    match untrusted.nextValidators with
    | some untrustedNextValidators =>
      verdict (some (nextValidatorsMatch self.predicates P untrustedNextValidators
        untrusted.signedHeader.header.nextValidatorsHash))
    | none => pure ()
    verdict (some (headerMatchesCommit self.predicates P untrusted.signedHeader.header
      untrusted.signedHeader.commit.blockId.hash))
    verdict (some (validCommit untrusted.signedHeader untrusted.validators))

/-- `PredicateVerifier::validate_against_trusted`, whose predicates read nothing of the verifier. -/
def validateAgainstTrusted (untrusted : UntrustedBlockState) (trusted : TrustedBlockState)
    (options : Options) (now : Time) : Option Verdict :=
  Verdict.ofBody do
    verdict (some (isWithinTrustPeriod trusted.headerTime options.trustingPeriod now))
    verdict (some (isMonotonicBftTime untrusted.signedHeader.header.time trusted.headerTime))
    verdict (some (isMatchingChainId untrusted.signedHeader.header.chainId trusted.chainId))
    let trustedNextHeight ← ExceptT.lift trusted.height.increment
    if untrusted.height = trustedNextHeight then
      verdict (some (validNextValidatorSet untrusted.signedHeader.header.validatorsHash
        trusted.nextValidatorsHash))
    else
      verdict (isMonotonicHeight untrusted.signedHeader.header.height trusted.height).run

/-- `PredicateVerifier::check_header_is_from_past`, whose predicate reads nothing of the
verifier. -/
def checkHeaderIsFromPast (untrusted : UntrustedBlockState) (options : Options) (now : Time) :
    Option Verdict :=
  Verdict.ofBody do
    verdict (some (isHeaderFromPast untrusted.signedHeader.header.time options.clockDrift now))

/-- `PredicateVerifier::verify_commit`. -/
def verifyCommit (untrusted : UntrustedBlockState) : Option Verdict :=
  Verdict.ofBody do
    verdict (hasSufficientSignersOverlap self.votingPowerCalculator P untrusted.signedHeader
      untrusted.validators).run

/-- `PredicateVerifier::verify_commit_against_trusted`: the trusted validators are only counted for
a header that is not the next one. -/
def verifyCommitAgainstTrusted (untrusted : UntrustedBlockState) (trusted : TrustedBlockState)
    (options : Options) : Option Verdict :=
  Verdict.ofBody do
    let trustedNextHeight ← ExceptT.lift trusted.height.increment
    let needBoth := untrusted.height != trustedNextHeight
    let result :=
      if needBoth then
        hasSufficientValidatorsAndSignersOverlap self.votingPowerCalculator P
          untrusted.signedHeader trusted.nextValidators options.trustThreshold untrusted.validators
      else
        hasSufficientSignersOverlap self.votingPowerCalculator P untrusted.signedHeader
          untrusted.validators
    verdict result.run

/-- `Verifier::verify_update_header`. -/
def verifyUpdateHeader (untrusted : UntrustedBlockState) (trusted : TrustedBlockState)
    (options : Options) (now : Time) : Option Verdict :=
  Verdict.ofBody do
    ensureVerdictSuccess (self.verifyValidatorSets P untrusted)
    ensureVerdictSuccess (validateAgainstTrusted untrusted trusted options now)
    ensureVerdictSuccess (checkHeaderIsFromPast untrusted options now)
    ensureVerdictSuccess (self.verifyCommitAgainstTrusted P untrusted trusted options)

/-- `Verifier::verify_misbehaviour_header`: the same without the check against the clock. -/
def verifyMisbehaviourHeader (untrusted : UntrustedBlockState) (trusted : TrustedBlockState)
    (options : Options) (now : Time) : Option Verdict :=
  Verdict.ofBody do
    ensureVerdictSuccess (self.verifyValidatorSets P untrusted)
    ensureVerdictSuccess (validateAgainstTrusted untrusted trusted options now)
    ensureVerdictSuccess (self.verifyCommitAgainstTrusted P untrusted trusted options)

end PredicateVerifier

/-! ## The verdict macros -/

namespace Verdict

@[simp] theorem ofResult_eq_success {r : Except VerificationError Unit} :
    ofResult r = success ↔ r = .ok () := by
  rcases r with e | ⟨⟩
  · cases e <;> simp [ofResult, VerificationError.notEnoughTrust?]
  · simp [ofResult]

@[simp] theorem ofResult_eq_notEnoughTrust {r : Except VerificationError Unit}
    {t : VotingPowerTally} : ofResult r = notEnoughTrust t ↔ r = .error (.notEnoughTrust t) := by
  rcases r with e | ⟨⟩
  · cases e <;> simp [ofResult, VerificationError.notEnoughTrust?]
  · simp [ofResult]

theorem ofBody_verdict (r : Option (Except VerificationError Unit)) :
    ofBody (verdict r) = r.map ofResult := by
  rcases r with _ | _ | ⟨⟩ <;> rfl

/-- A `verdict!` followed by the rest of a method: the verdict of the failed predicate, or the
rest. -/
theorem ofBody_verdict_bind_eq_some {r : Option (Except VerificationError Unit)}
    {f : Unit → ExceptT Verdict Option Unit} {w : Verdict} :
    ofBody (verdict r >>= f) = some w ↔
      (∃ e, r = some (.error e) ∧ ofResult (.error e) = w) ∨
        (r = some (.ok ()) ∧ ofBody (f ()) = some w) := by
  rcases r with _ | e | ⟨⟩
  · have hrun : ofBody (verdict none >>= f) = none := rfl
    simp [hrun]
  · have hrun : ofBody (verdict (some (.error e)) >>= f) = some (ofResult (.error e)) := rfl
    simp [hrun]
  · have hrun : ofBody (verdict (some (.ok ())) >>= f) = ofBody (f ()) := rfl
    simp [hrun]

/-- An `ensure_verdict_success!` followed by the rest of a method: the verdict it was given unless
that is `Success`, and the rest otherwise. -/
theorem ofBody_ensureVerdictSuccess_bind_eq_some {v : Option Verdict}
    {f : Unit → ExceptT Verdict Option Unit} {w : Verdict} :
    ofBody (ensureVerdictSuccess v >>= f) = some w ↔
      (v = some w ∧ w ≠ success) ∨ (v = some success ∧ ofBody (f ()) = some w) := by
  rcases v with _ | _ | t | e
  · have hrun : ofBody (ensureVerdictSuccess none >>= f) = none := rfl
    simp [hrun]
  · have hrun : ofBody (ensureVerdictSuccess (some success) >>= f) = ofBody (f ()) := rfl
    simp only [hrun, Option.some.injEq, true_and]
    constructor
    · exact .inr
    · rintro (⟨rfl, h⟩ | h)
      · exact absurd rfl h
      · exact h
  · have hrun : ofBody (ensureVerdictSuccess (some (notEnoughTrust t)) >>= f) =
        some (notEnoughTrust t) := rfl
    simp only [hrun, Option.some.injEq, reduceCtorEq, false_and, or_false]
    exact ⟨fun h => ⟨h, h ▸ by simp⟩, And.left⟩
  · have hrun : ofBody (ensureVerdictSuccess (some (invalid e)) >>= f) = some (invalid e) := rfl
    simp only [hrun, Option.some.injEq, reduceCtorEq, false_and, or_false]
    exact ⟨fun h => ⟨h, h ▸ by simp⟩, And.left⟩

theorem ofBody_ensureVerdictSuccess (v : Option Verdict) : ofBody (ensureVerdictSuccess v) = v := by
  rcases v with _ | _ | _ | _ <;> rfl

theorem ofBody_lift_bind {α : Type} {o : Option α} {a : α} (h : o = some a)
    {f : α → ExceptT Verdict Option Unit} : ofBody (ExceptT.lift o >>= f) = ofBody (f a) := by
  subst h
  rfl

/-- A value computed in the middle of a method: a panic, or the rest of the method on it. -/
theorem ofBody_lift_bind_eq_some {α : Type} {o : Option α} {f : α → ExceptT Verdict Option Unit}
    {w : Verdict} : ofBody (ExceptT.lift o >>= f) = some w ↔ ∃ a, o = some a ∧ ofBody (f a) = some w := by
  rcases o with _ | a
  · have hrun : ofBody (ExceptT.lift none >>= f) = none := rfl
    simp [hrun]
  · have hrun : ofBody (ExceptT.lift (some a) >>= f) = ofBody (f a) := rfl
    simp [hrun]

theorem ofBody_verdict_some_isSome (r : Except VerificationError Unit) :
    (ofBody (verdict (some r))).isSome := by
  rcases r with e | ⟨⟩ <;> rfl

/-- A predicate that does not panic: the method panics only if its rest does. -/
theorem ofBody_verdict_some_bind_isSome {r : Except VerificationError Unit}
    {f : Unit → ExceptT Verdict Option Unit} (h : (ofBody (f ())).isSome) :
    (ofBody (verdict (some r) >>= f)).isSome := by
  rcases r with e | ⟨⟩
  · rfl
  · exact h

end Verdict

/-! ## What each method decides -/

namespace PredicateVerifier

open Verdict

theorem verifyValidatorSets_eq_success {self : PredicateVerifier} {P : Prost}
    {untrusted : UntrustedBlockState} :
    self.verifyValidatorSets P untrusted = some .success ↔
      ValidatorSetsValid self.predicates P untrusted := by
  obtain ⟨sh, vals, next⟩ := untrusted
  rw [validatorSetsValid_iff, ← validCommit_eq_ok]
  cases next <;>
    simp [verifyValidatorSets, ofBody_verdict_bind_eq_some, ofBody_verdict, validatorSetsMatch,
      nextValidatorsMatch, headerMatchesCommit]

/-- `verify_validator_sets` never reports `NotEnoughTrust`. -/
theorem verifyValidatorSets_ne_notEnoughTrust {self : PredicateVerifier} {P : Prost}
    {untrusted : UntrustedBlockState} (t : VotingPowerTally) :
    self.verifyValidatorSets P untrusted ≠ some (.notEnoughTrust t) := by
  obtain ⟨sh, vals, next⟩ := untrusted
  cases next <;>
    simp [verifyValidatorSets, ofBody_verdict_bind_eq_some, ofBody_verdict, validatorSetsMatch,
      nextValidatorsMatch, headerMatchesCommit, validCommit_ne_notEnoughTrust]

theorem validateAgainstTrusted_eq_success {untrusted : UntrustedBlockState}
    {trusted : TrustedBlockState} {options : Options} {now : Time} :
    validateAgainstTrusted untrusted trusted options now = some .success ↔
      TrustedStateValid untrusted trusted options now := by
  rw [trustedStateValid_iff]
  simp only [validateAgainstTrusted, ofBody_verdict_bind_eq_some, ofBody_lift_bind_eq_some,
    ofResult_eq_success, Option.some.injEq, reduceCtorEq, and_false, exists_false, false_or,
    isWithinTrustPeriod_eq_ok, isMonotonicBftTime, isMatchingChainId, ensure_eq_ok,
    Height.increment_eq_some]
  refine and_congr_right' (and_congr_right' (and_congr_right' ?_))
  -- the height: the next one with the trusted next validators, or a later one
  constructor
  · rintro ⟨next, hnext, h⟩
    split at h
    · next hadj =>
      simp only [ofBody_verdict, Option.map_some, Option.some.injEq, ofResult_eq_success,
        validNextValidatorSet, ensure_eq_ok] at h
      have hv : untrusted.height.value = trusted.height.value + 1 := by rw [hadj, hnext]
      exact ⟨by simp [hv], fun _ => h.symm⟩
    · next hadj =>
      simp only [ofBody_verdict, Option.map_eq_some_iff, ofResult_eq_success, exists_eq_right,
        isMonotonicHeight_run_eq_ok] at h
      refine ⟨h, fun hv => absurd ?_ hadj⟩
      rw [Height.ext_iff', hv, hnext]
  · rintro ⟨hmono, hadj⟩
    -- the increment does not panic below a later height
    have hlt : trusted.height.value + 1 < i64Bound :=
      Nat.lt_of_le_of_lt (Height.lt_iff.mp hmono) untrusted.height.lt
    refine ⟨⟨trusted.height.value + 1, hlt⟩, rfl, ?_⟩
    split
    · next heq =>
      have hv : untrusted.height.value = trusted.height.value + 1 := by rw [heq]
      simp [ofBody_verdict, validNextValidatorSet, hadj hv]
    · have hrun : (isMonotonicHeight untrusted.signedHeader.header.height trusted.height).run =
          some (.ok ()) := isMonotonicHeight_run_eq_ok.mpr hmono
      simp [ofBody_verdict, hrun]

/-- `validate_against_trusted` never reports `NotEnoughTrust`. -/
theorem validateAgainstTrusted_ne_notEnoughTrust {untrusted : UntrustedBlockState}
    {trusted : TrustedBlockState} {options : Options} {now : Time} (t : VotingPowerTally) :
    validateAgainstTrusted untrusted trusted options now ≠ some (.notEnoughTrust t) := by
  intro h
  simp only [validateAgainstTrusted, ofBody_verdict_bind_eq_some, ofBody_lift_bind_eq_some,
    ofResult_eq_notEnoughTrust, Option.some.injEq, Except.error.injEq, exists_eq_right] at h
  -- each predicate fails with its own error
  rcases h with h | ⟨-, h | ⟨-, h | ⟨-, next, -, h⟩⟩⟩
  · exact isWithinTrustPeriod_ne_notEnoughTrust t h
  · simp [isMonotonicBftTime] at h
  · simp [isMatchingChainId] at h
  · split at h
    · simp [ofBody_verdict, validNextValidatorSet] at h
    · simp only [ofBody_verdict, Option.map_eq_some_iff, ofResult_eq_notEnoughTrust,
        exists_eq_right] at h
      obtain ⟨expected, he⟩ := isMonotonicHeight_run_eq_error h
      cases he

theorem checkHeaderIsFromPast_eq_success {untrusted : UntrustedBlockState} {options : Options}
    {now : Time} :
    checkHeaderIsFromPast untrusted options now = some .success ↔
      HeaderFromPast untrusted options now := by
  simp [checkHeaderIsFromPast, ofBody_verdict, isHeaderFromPast_eq_ok, HeaderFromPast]

theorem checkHeaderIsFromPast_ne_notEnoughTrust {untrusted : UntrustedBlockState}
    {options : Options} {now : Time} (t : VotingPowerTally) :
    checkHeaderIsFromPast untrusted options now ≠ some (.notEnoughTrust t) := by
  simp [checkHeaderIsFromPast, ofBody_verdict, isHeaderFromPast_ne_notEnoughTrust]

/-- For the next header, only the untrusted validators are counted. -/
theorem verifyCommitAgainstTrusted_of_adjacent {self : PredicateVerifier} {P : Prost}
    {untrusted : UntrustedBlockState} {trusted : TrustedBlockState} {options : Options}
    (hadj : untrusted.height.value = trusted.height.value + 1) :
    self.verifyCommitAgainstTrusted P untrusted trusted options =
      (checkSignersOverlap self.votingPowerCalculator P untrusted.signedHeader
        untrusted.validators).run.map Verdict.ofResult := by
  unfold verifyCommitAgainstTrusted
  rw [ofBody_lift_bind (Height.increment_eq_some.mpr hadj)]
  simp [ofBody_verdict, hasSufficientSignersOverlap]

/-- For a later header, the trusted next validators are counted too. -/
theorem verifyCommitAgainstTrusted_of_not_adjacent {self : PredicateVerifier} {P : Prost}
    {untrusted : UntrustedBlockState} {trusted : TrustedBlockState} {options : Options}
    (hlt : trusted.height.value + 1 < i64Bound)
    (hadj : untrusted.height.value ≠ trusted.height.value + 1) :
    self.verifyCommitAgainstTrusted P untrusted trusted options =
      (checkEnoughTrustAndSigners self.votingPowerCalculator P untrusted.signedHeader
        trusted.nextValidators options.trustThreshold untrusted.validators).run.map
          Verdict.ofResult := by
  unfold verifyCommitAgainstTrusted
  have hinc : trusted.height.increment = some ⟨_, hlt⟩ := Height.increment_eq_some.mpr rfl
  rw [ofBody_lift_bind hinc]
  have hne : untrusted.height ≠ ⟨_, hlt⟩ := fun h => hadj (by rw [h])
  simp [ofBody_verdict, hasSufficientValidatorsAndSignersOverlap, hne]

/-- `verify_update_header` accepts exactly a header that passes every check but the voting power
ones and whose commit verifies against the trusted state. -/
theorem verifyUpdateHeader_eq_success {self : PredicateVerifier} {P : Prost}
    {untrusted : UntrustedBlockState} {trusted : TrustedBlockState} {options : Options} {now : Time} :
    self.verifyUpdateHeader P untrusted trusted options now = some .success ↔
      UpdateHeaderValid self.predicates P untrusted trusted options now ∧
        self.verifyCommitAgainstTrusted P untrusted trusted options = some .success := by
  simp only [verifyUpdateHeader, ofBody_ensureVerdictSuccess_bind_eq_some,
    ofBody_ensureVerdictSuccess, ne_eq, not_true_eq_false, and_false, false_or,
    verifyValidatorSets_eq_success, validateAgainstTrusted_eq_success,
    checkHeaderIsFromPast_eq_success, updateHeaderValid_iff, and_assoc]

/-- `verify_update_header` reports `NotEnoughTrust` exactly when every check but the voting power
ones passes and the commit verification reports it. -/
theorem verifyUpdateHeader_eq_notEnoughTrust {self : PredicateVerifier} {P : Prost}
    {untrusted : UntrustedBlockState} {trusted : TrustedBlockState} {options : Options} {now : Time}
    {t : VotingPowerTally} :
    self.verifyUpdateHeader P untrusted trusted options now = some (.notEnoughTrust t) ↔
      UpdateHeaderValid self.predicates P untrusted trusted options now ∧
        self.verifyCommitAgainstTrusted P untrusted trusted options = some (.notEnoughTrust t) := by
  simp only [verifyUpdateHeader, ofBody_ensureVerdictSuccess_bind_eq_some,
    ofBody_ensureVerdictSuccess, verifyValidatorSets_ne_notEnoughTrust,
    validateAgainstTrusted_ne_notEnoughTrust, checkHeaderIsFromPast_ne_notEnoughTrust, false_and,
    false_or, verifyValidatorSets_eq_success, validateAgainstTrusted_eq_success,
    checkHeaderIsFromPast_eq_success, updateHeaderValid_iff, and_assoc]

/-! ### Panics and heights

Of the groups `verify_update_header` runs before the commit, only `validate_against_trusted` can
panic, at the last height; a header that is not above the trusted one is therefore found
invalid. -/

theorem verifyValidatorSets_isSome (self : PredicateVerifier) (P : Prost)
    (untrusted : UntrustedBlockState) : (self.verifyValidatorSets P untrusted).isSome := by
  obtain ⟨sh, vals, next⟩ := untrusted
  -- every predicate of the group is a plain `Result`
  cases next <;>
    simp only [verifyValidatorSets] <;>
    repeat (first | exact ofBody_verdict_some_isSome _ | apply ofBody_verdict_some_bind_isSome)

theorem validateAgainstTrusted_isSome {untrusted : UntrustedBlockState}
    {trusted : TrustedBlockState} {options : Options} {now : Time}
    (hlt : trusted.height.value + 1 < i64Bound) :
    (validateAgainstTrusted untrusted trusted options now).isSome := by
  have hinc : trusted.height.increment = some ⟨_, hlt⟩ := Height.increment_eq_some.mpr rfl
  unfold validateAgainstTrusted
  repeat apply ofBody_verdict_some_bind_isSome
  rw [ofBody_lift_bind hinc]
  split
  · exact ofBody_verdict_some_isSome _
  · have hsome : (isMonotonicHeight untrusted.signedHeader.header.height trusted.height).run.isSome :=
      isMonotonicHeight_run_isSome hlt
    obtain ⟨r, hr⟩ := Option.isSome_iff_exists.mp hsome
    rw [hr]
    exact ofBody_verdict_some_isSome r

/-- A verdict of a group that is neither `Success` nor `NotEnoughTrust` is an `Invalid` one. -/
theorem eq_invalid_of_ne {v : Verdict} (hs : v ≠ .success) (hn : ∀ t, v ≠ .notEnoughTrust t) :
    ∃ e, v = .invalid e := by
  cases v with
  | success => exact absurd rfl hs
  | notEnoughTrust t => exact absurd rfl (hn t)
  | invalid e => exact ⟨e, rfl⟩

/-- A header that is not above the trusted one is found invalid, unless the trusted height is the
last one, whose increment panics. -/
theorem verifyUpdateHeader_of_not_monotonic {self : PredicateVerifier} {P : Prost}
    {untrusted : UntrustedBlockState} {trusted : TrustedBlockState} {options : Options} {now : Time}
    (hle : untrusted.height ≤ trusted.height) (hlt : trusted.height.value + 1 < i64Bound) :
    ∃ e, self.verifyUpdateHeader P untrusted trusted options now = some (.invalid e) := by
  obtain ⟨v₁, hv₁⟩ := Option.isSome_iff_exists.mp (self.verifyValidatorSets_isSome P untrusted)
  simp only [verifyUpdateHeader, ofBody_ensureVerdictSuccess_bind_eq_some]
  by_cases hs₁ : v₁ = .success
  · -- the validator sets pass: the height check against the trusted block fails
    subst hs₁
    have hsome : (validateAgainstTrusted untrusted trusted options now).isSome :=
      validateAgainstTrusted_isSome hlt
    obtain ⟨v₂, hv₂⟩ := Option.isSome_iff_exists.mp hsome
    have hs₂ : v₂ ≠ .success := by
      rintro rfl
      exact not_lt.mpr hle (validateAgainstTrusted_eq_success.mp hv₂).monotonicHeight
    obtain ⟨e, rfl⟩ := eq_invalid_of_ne hs₂ fun t h =>
      validateAgainstTrusted_ne_notEnoughTrust t (h ▸ hv₂)
    exact ⟨e, .inr ⟨hv₁, .inl ⟨hv₂, by simp⟩⟩⟩
  · obtain ⟨e, rfl⟩ := eq_invalid_of_ne hs₁ fun t h =>
      verifyValidatorSets_ne_notEnoughTrust t (h ▸ hv₁)
    exact ⟨e, .inl ⟨hv₁, by simp⟩⟩

/-- An accepted header is above the trusted one. -/
theorem verifyUpdateHeader_success_height {self : PredicateVerifier} {P : Prost}
    {untrusted : UntrustedBlockState} {trusted : TrustedBlockState} {options : Options} {now : Time}
    (h : self.verifyUpdateHeader P untrusted trusted options now = some .success) :
    trusted.height < untrusted.height :=
  (verifyUpdateHeader_eq_success.mp h).1.trustedState.monotonicHeight

/-! ## The voting power behind a verdict -/

/-- A commit verification that passes: for the next header, more than two thirds of the untrusted
validators' power signed; for a later one, more than the trust threshold of the trusted next
validators' power signed, and, when validators of both sets with one address have one key, more
than two thirds of the untrusted validators' power. -/
theorem verifyCommitAgainstTrusted_success_power {self : PredicateVerifier} {P : Prost}
    {untrusted : UntrustedBlockState} {trusted : TrustedBlockState} {options : Options}
    (hmono : trusted.height < untrusted.height)
    (h : self.verifyCommitAgainstTrusted P untrusted trusted options = some .success) :
    (untrusted.height.value = trusted.height.value + 1 →
      ∃ p, SignedPower self.votingPowerCalculator P untrusted.signedHeader
          untrusted.validators.validators p ∧
        (untrusted.validators.validators.map fun v => v.power.value).sum * 2 < p * 3) ∧
    (untrusted.height.value ≠ trusted.height.value + 1 →
      (∃ p, SignedPower self.votingPowerCalculator P untrusted.signedHeader
          trusted.nextValidators.validators p ∧
        (trusted.nextValidators.validators.map fun v => v.power.value).sum *
          options.trustThreshold.numerator.toNat < p * options.trustThreshold.denominator.toNat) ∧
      ((∀ a ∈ trusted.nextValidators.validators, ∀ b ∈ untrusted.validators.validators,
          a.address = b.address → a.pubKey = b.pubKey) →
        ∃ p, SignedPower self.votingPowerCalculator P untrusted.signedHeader
            untrusted.validators.validators p ∧
          (untrusted.validators.validators.map fun v => v.power.value).sum * 2 < p * 3)) := by
  refine ⟨fun hadj => ?_, fun hadj => ?_⟩
  · rw [verifyCommitAgainstTrusted_of_adjacent hadj] at h
    simp only [Option.map_eq_some_iff, ofResult_eq_success, exists_eq_right] at h
    obtain ⟨t, ht, hchk⟩ := checkSignersOverlap_run_eq_ok h
    exact signedPower_of_check ht hchk
  · have hlt : trusted.height.value + 1 < i64Bound :=
      Nat.lt_of_le_of_lt (Height.lt_iff.mp hmono) untrusted.height.lt
    rw [verifyCommitAgainstTrusted_of_not_adjacent hlt hadj] at h
    simp only [Option.map_eq_some_iff, ofResult_eq_success, exists_eq_right] at h
    obtain ⟨t₁, t₂, hsets, hc₁, hc₂⟩ := checkEnoughTrustAndSigners_run_eq_ok h
    obtain ⟨h₁, h₂⟩ := votingPowerInSets_run_eq_ok hsets
    exact ⟨signedPower_of_check h₁ hc₁, fun hkeys => signedPower_of_check (h₂ hkeys) hc₂⟩

/-- A commit verification that reports `NotEnoughTrust` is for a header that is not the next one,
and no sublist of the trusted next validators that all sign has more than the trust threshold of
their power. -/
theorem verifyCommitAgainstTrusted_notEnoughTrust_power {self : PredicateVerifier} {P : Prost}
    {untrusted : UntrustedBlockState} {trusted : TrustedBlockState} {options : Options}
    {t : VotingPowerTally} (hmono : trusted.height < untrusted.height)
    (h : self.verifyCommitAgainstTrusted P untrusted trusted options = some (.notEnoughTrust t)) :
    untrusted.height.value ≠ trusted.height.value + 1 ∧
      ∀ S : List Validator.Info, S.Sublist trusted.nextValidators.validators →
        (∀ v ∈ S, ∃ j, SignsAt self.votingPowerCalculator P untrusted.signedHeader v j) →
        (S.map fun v => v.power.value).sum * options.trustThreshold.denominator.toNat ≤
          (trusted.nextValidators.validators.map fun v => v.power.value).sum *
            options.trustThreshold.numerator.toNat := by
  -- for the next header only the signers' overlap is checked, which never reports it
  have hadj : untrusted.height.value ≠ trusted.height.value + 1 := by
    intro hadj
    rw [verifyCommitAgainstTrusted_of_adjacent hadj] at h
    simp only [Option.map_eq_some_iff, ofResult_eq_notEnoughTrust, exists_eq_right] at h
    rcases checkSignersOverlap_run_eq_error h with he | ⟨t', he⟩
    · exact he.ne_notEnoughTrust t rfl
    · cases he
  refine ⟨hadj, fun S hS hsigned => ?_⟩
  have hlt : trusted.height.value + 1 < i64Bound :=
    Nat.lt_of_le_of_lt (Height.lt_iff.mp hmono) untrusted.height.lt
  rw [verifyCommitAgainstTrusted_of_not_adjacent hlt hadj] at h
  simp only [Option.map_eq_some_iff, ofResult_eq_notEnoughTrust, exists_eq_right] at h
  obtain ⟨t₂, hsets, hchk⟩ := checkEnoughTrustAndSigners_run_eq_notEnoughTrust.mp h
  exact signedPower_le_of_check (votingPowerInSets_run_eq_ok hsets).1 hchk hS hsigned

/-- A header found to lack trust is at least two heights above the trusted one. -/
theorem verifyUpdateHeader_notEnoughTrust_height {self : PredicateVerifier} {P : Prost}
    {untrusted : UntrustedBlockState} {trusted : TrustedBlockState} {options : Options} {now : Time}
    {t : VotingPowerTally}
    (h : self.verifyUpdateHeader P untrusted trusted options now = some (.notEnoughTrust t)) :
    trusted.height.value + 2 ≤ untrusted.height.value := by
  obtain ⟨hvalid, hcommit⟩ := verifyUpdateHeader_eq_notEnoughTrust.mp h
  have hmono := hvalid.trustedState.monotonicHeight
  have hadj := (verifyCommitAgainstTrusted_notEnoughTrust_power hmono hcommit).1
  rw [Height.lt_iff] at hmono
  omega

theorem verifyUpdateHeader_verdict_spec (self : PredicateVerifier) (P : Prost)
    (untrusted : UntrustedBlockState) (trusted : TrustedBlockState) (options : Options)
    (now : Time) :
    (self.verifyUpdateHeader P untrusted trusted options now = some .success ↔
      UpdateHeaderValid self.predicates P untrusted trusted options now ∧
        self.verifyCommitAgainstTrusted P untrusted trusted options = some .success) ∧
    (self.verifyUpdateHeader P untrusted trusted options now = some .success →
      (untrusted.height.value = trusted.height.value + 1 →
        ∃ p, SignedPower self.votingPowerCalculator P untrusted.signedHeader
            untrusted.validators.validators p ∧
          (untrusted.validators.validators.map fun v => v.power.value).sum * 2 < p * 3) ∧
      (untrusted.height.value ≠ trusted.height.value + 1 →
        (∃ p, SignedPower self.votingPowerCalculator P untrusted.signedHeader
            trusted.nextValidators.validators p ∧
          (trusted.nextValidators.validators.map fun v => v.power.value).sum *
            options.trustThreshold.numerator.toNat < p * options.trustThreshold.denominator.toNat) ∧
        ((∀ a ∈ trusted.nextValidators.validators, ∀ b ∈ untrusted.validators.validators,
            a.address = b.address → a.pubKey = b.pubKey) →
          ∃ p, SignedPower self.votingPowerCalculator P untrusted.signedHeader
              untrusted.validators.validators p ∧
            (untrusted.validators.validators.map fun v => v.power.value).sum * 2 < p * 3))) ∧
    ∀ t, self.verifyUpdateHeader P untrusted trusted options now = some (.notEnoughTrust t) →
      UpdateHeaderValid self.predicates P untrusted trusted options now ∧
      untrusted.height.value ≠ trusted.height.value + 1 ∧
      ∀ S : List Validator.Info, S.Sublist trusted.nextValidators.validators →
        (∀ v ∈ S, ∃ j, SignsAt self.votingPowerCalculator P untrusted.signedHeader v j) →
        (S.map fun v => v.power.value).sum * options.trustThreshold.denominator.toNat ≤
          (trusted.nextValidators.validators.map fun v => v.power.value).sum *
            options.trustThreshold.numerator.toNat := by
  refine ⟨verifyUpdateHeader_eq_success, fun h => ?_, fun t h => ?_⟩
  · obtain ⟨hvalid, hcommit⟩ := verifyUpdateHeader_eq_success.mp h
    exact verifyCommitAgainstTrusted_success_power hvalid.trustedState.monotonicHeight hcommit
  · obtain ⟨hvalid, hcommit⟩ := verifyUpdateHeader_eq_notEnoughTrust.mp h
    exact ⟨hvalid, verifyCommitAgainstTrusted_notEnoughTrust_power
      hvalid.trustedState.monotonicHeight hcommit⟩

/-- A later header whose commit holds only a nil vote is reported as `NotEnoughTrust`, although
its own validators did not sign it either. -/
theorem verifyUpdateHeader_notEnoughTrust_below_two_thirds :
    ∃ (self : PredicateVerifier) (P : Prost) (untrusted : UntrustedBlockState)
      (trusted : TrustedBlockState) (options : Options) (now : Time) (t : VotingPowerTally),
      self.verifyUpdateHeader P untrusted trusted options now = some (.notEnoughTrust t) ∧
      ¬ ∃ p, SignedPower self.votingPowerCalculator P untrusted.signedHeader
          untrusted.validators.validators p ∧
        (untrusted.validators.validators.map fun v => v.power.value).sum * 2 < p * 3 := by
  -- one validator of power one in both sets, a header three heights above the trusted one, and a
  -- commit with the validator's nil vote
  let v : Validator.Info :=
    ⟨⟨List.Vector.replicate 20 0⟩, .ed25519 (List.Vector.replicate 32 0), ⟨1, by decide⟩, none, 0⟩
  let vals : Validator.Set := ⟨[v], none, ⟨1, by decide⟩⟩
  let H := MerkleHash.ofSha256 Sha256.zero
  let header := Header.ofHashes ⟨3, by decide⟩ ⟨1, by decide, by decide⟩
    (vals.hashWith H .empty) (vals.hashWith H .empty)
  let sh : SignedHeader := ⟨header, ⟨⟨3, by decide⟩, ⟨0, by decide⟩,
    ⟨header.hashWith H .empty, default⟩, [.blockIdFlagNil v.address .unixEpoch none]⟩⟩
  let untrusted : UntrustedBlockState := ⟨sh, vals, none⟩
  let trusted : TrustedBlockState :=
    ⟨header.chainId, .unixEpoch, ⟨1, by decide⟩, vals, vals.hashWith H .empty⟩
  let options : Options := ⟨.oneThird, ⟨10, by decide⟩, ⟨10, by decide⟩⟩
  refine ⟨⟨H, .acceptAll⟩, .empty, untrusted, trusted, options, ⟨2, by decide, by decide⟩,
    .new 1 .oneThird, ?_, ?_⟩
  · refine verifyUpdateHeader_eq_notEnoughTrust.mpr ⟨⟨?_, ?_, ?_⟩, ?_⟩
    · refine ⟨rfl, (fun n hn => nomatch hn), rfl, ⟨⟨_, List.mem_singleton_self _, rfl⟩, rfl, ?_⟩⟩
      simp [untrusted, sh, vals, CommitSig.validatorAddress]
    · refine ⟨⟨⟨10, by decide, by decide⟩, Time.add_eq_ok.mpr ⟨by decide, rfl⟩, by decide⟩,
        by decide, rfl, by decide, fun h => absurd h (by decide)⟩
    · exact ⟨⟨12, by decide, by decide⟩, Time.add_eq_ok.mpr ⟨by decide, rfl⟩, by decide⟩
    · -- nothing is tallied, and the trusted tally is checked first
      have hnone : ∀ cs ∈ sh.commit.signatures, cs.isCommit = false := by
        simp [sh, CommitSig.isCommit]
      have hsets : (votingPowerInSets .acceptAll .empty sh (vals, .oneThird)
          (vals, .twoThirds)).run = some (.ok (.new 1 .oneThird, .new 1 .twoThirds)) :=
        votingPowerInSets_run_of_no_commit hnone (by decide)
          (show totalPowerOf vals = some 1 by decide) (show totalPowerOf vals = some 1 by decide)
      have hchk : (VotingPowerTally.new 1 .oneThird).check = some (.error (.new 1 .oneThird)) := by
        decide
      rw [verifyCommitAgainstTrusted_of_not_adjacent (by decide) (by decide),
        checkEnoughTrustAndSigners_run_eq_notEnoughTrust.mpr ⟨_, hsets, hchk⟩]
      rfl
  · -- a signing validator would need a commit vote, and the commit has none
    rintro ⟨p, ⟨cred, -, -, rfl, hsigns⟩, hlt⟩
    cases cred with
    | nil => simp [untrusted, vals, v] at hlt
    | cons c _ =>
      obtain ⟨ts, s, hj, -⟩ := hsigns c List.mem_cons_self
      rcases c with ⟨w, _ | j⟩ <;> simp [untrusted, sh] at hj

end PredicateVerifier

end Verifier

end Tendermint
