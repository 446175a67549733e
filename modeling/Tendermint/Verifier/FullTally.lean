import Tendermint.Verifier.VotingPower

/-!
# The full tally

`voting_power_in_impl` stops walking the validator set as soon as the tally passes the threshold,
so the tally it returns may leave signers out. This module compares the verdict of that tally with
the verdict of the full tally: the power of every validator of the set that signs an entry of the
commit (`signersPower`), against the threshold's share of the set's power over the naturals
(`FullTallyPasses`).

A returned tally is at most the full tally, and is the full tally when its check fails, so its
check passes only when the full tally passes and fails only when it does not
(`votingPowerIn_full_tally`). `check_signers_overlap` and `check_enough_trust_and_signers` decide
on those checks, so on the full tallies. `is_enough_power` itself does not give the full tally's
verdict: its `u64` products can overflow on the full tally where they do not on the tally the walk
stopped at.

The cap on the set's power that the verdict of `check_signers_overlap` needs is the one every set
built by `Set::try_from_parts` keeps (`Validator.Set.Canonical`); the last section states what that
constructor establishes, and that `total_power_of` then sums without overflow.
-/

namespace Tendermint

namespace Verifier

open Rust

section Signers

variable (V : Signature.Verifier) (P : Prost) (sh : SignedHeader)

/-- Whether a commit entry is a commit vote of `v`'s address with a signature that `v`'s key
accepts over the entry's sign bytes. -/
def signsEntry (v : Validator.Info) : CommitSig → Bool
  | .blockIdFlagCommit address timestamp (some signature) =>
    decide (address = v.address) &&
      V.verify v.pubKey (commitVoteSignBytes P sh timestamp) signature
  | _ => false

/-- Whether `v` signs an entry of the commit. -/
def signsCommit (v : Validator.Info) : Bool :=
  sh.commit.signatures.any (signsEntry V P sh v)

/-- The full tally: the power of the validators of `vals` that sign an entry of the commit. -/
def signersPower (vals : List Validator.Info) : Nat :=
  ((vals.filter (signsCommit V P sh)).map fun v => v.power.value).sum

/-- The threshold's verdict on the full tally, over the naturals: the signers hold more than the
threshold's share of the set's power. -/
def FullTallyPasses (vals : Validator.Set) (tt : TrustThresholdFraction) : Prop :=
  (vals.validators.map fun v => v.power.value).sum * tt.numerator.toNat <
    signersPower V P sh vals.validators * tt.denominator.toNat

instance (vals : Validator.Set) (tt : TrustThresholdFraction) :
    Decidable (FullTallyPasses V P sh vals tt) :=
  inferInstanceAs (Decidable (_ < _))

variable {V P sh}

theorem signsCommit_iff {v : Validator.Info} :
    signsCommit V P sh v = true ↔ ∃ j, SignsAt V P sh v j := by
  rw [signsCommit, List.any_eq_true]
  constructor
  · rintro ⟨cs, hmem, hcs⟩
    obtain ⟨j, hj⟩ := List.mem_iff_getElem?.mp hmem
    -- only a signed commit vote of `v`'s address counts
    rcases cs with _ | ⟨address, ts, _ | s⟩ | _ <;> simp only [signsEntry] at hcs
    · cases hcs
    · cases hcs
    · rw [Bool.and_eq_true, decide_eq_true_eq] at hcs
      obtain ⟨rfl, hver⟩ := hcs
      exact ⟨j, ts, s, hj, hver⟩
    · cases hcs
  · rintro ⟨j, ts, s, hj, hver⟩
    exact ⟨_, List.mem_of_getElem? hj, by simp [signsEntry, hver]⟩

variable {vals : List Validator.Info}

/-- A sublist of validators that all sign holds at most the full tally. -/
theorem sum_le_signersPower {S : List Validator.Info} (hS : S.Sublist vals)
    (hsigned : ∀ v ∈ S, ∃ j, SignsAt V P sh v j) :
    (S.map fun v => v.power.value).sum ≤ signersPower V P sh vals := by
  have hsub : S.Sublist (vals.filter (signsCommit V P sh)) := by
    have := hS.filter (signsCommit V P sh)
    rwa [List.filter_eq_self.mpr fun v hv => signsCommit_iff.mpr (hsigned v hv)] at this
  exact (hsub.map _).sum_le_sum fun _ _ => Nat.zero_le _

theorem signersPower_le_sum :
    signersPower V P sh vals ≤ (vals.map fun v => v.power.value).sum :=
  ((List.filter_sublist).map _).sum_le_sum fun _ _ => Nat.zero_le _

end Signers

/-! ## A returned tally against the full tally -/

section Tally

variable {V : Signature.Verifier} {P : Prost} {sh : SignedHeader} {vals : Validator.Set}
  {tt : TrustThresholdFraction} {t : VotingPowerTally}

/-- A returned tally is at most the full tally: it credits signers only. -/
theorem tallied_le_signersPower (h : (votingPowerIn V P sh vals tt).run = some (.ok t)) :
    t.tallied.toNat ≤ signersPower V P sh vals.validators := by
  obtain ⟨credited, hsub, -, htallied, hsigns⟩ := votingPowerIn_sound h
  have hsigned : ∀ v ∈ credited.map Prod.fst, ∃ j, SignsAt V P sh v j := by
    intro v hv
    obtain ⟨c, hc, rfl⟩ := List.mem_map.mp hv
    exact ⟨c.2, hsigns c hc⟩
  have hpowers : (credited.map fun c => c.1.power.value) =
      (credited.map Prod.fst).map fun v => v.power.value := by
    rw [List.map_map]
    rfl
  rw [htallied, hpowers]
  exact sum_le_signersPower hsub hsigned

/-- A returned tally whose check does not pass holds the full tally: the walk went to the end. -/
theorem signersPower_le_tallied (h : (votingPowerIn V P sh vals tt).run = some (.ok t))
    (hchk : t.check ≠ some (.ok ())) : signersPower V P sh vals.validators ≤ t.tallied.toNat :=
  votingPowerIn_complete h hchk List.filter_sublist fun _ hv =>
    signsCommit_iff.mp (List.mem_filter.mp hv).2

/-- The verdict of a returned tally is the full tally's. The tally is at most the full tally,
which is at most the set's power; a check that passes means the full tally passes, and a check
that fails was made on the full tally, which then does not pass. -/
theorem votingPowerIn_full_tally (h : (votingPowerIn V P sh vals tt).run = some (.ok t)) :
    t.tallied.toNat ≤ signersPower V P sh vals.validators ∧
      signersPower V P sh vals.validators ≤ t.total.toNat ∧
      (t.check = some (.ok ()) → FullTallyPasses V P sh vals tt) ∧
      ∀ t', t.check = some (.error t') →
        t.tallied.toNat = signersPower V P sh vals.validators ∧ ¬FullTallyPasses V P sh vals tt := by
  obtain ⟨htotal, rfl⟩ := votingPowerIn_tally h
  have hle := tallied_le_signersPower h
  refine ⟨hle, htotal ▸ signersPower_le_sum, fun hchk => ?_, fun t' hchk => ?_⟩
  · obtain ⟨-, -, hlt⟩ := VotingPowerTally.check_eq_ok.mp hchk
    unfold FullTallyPasses
    rw [← htotal]
    calc t.total.toNat * t.trustThreshold.numerator.toNat
        < t.tallied.toNat * t.trustThreshold.denominator.toNat := hlt
      _ ≤ signersPower V P sh vals.validators * t.trustThreshold.denominator.toNat :=
        Nat.mul_le_mul_right _ hle
  · have heq : t.tallied.toNat = signersPower V P sh vals.validators :=
      le_antisymm hle (signersPower_le_tallied h (by rw [hchk]; simp))
    obtain ⟨-, -, -, hge⟩ := VotingPowerTally.check_eq_error.mp hchk
    refine ⟨heq, fun hpass => ?_⟩
    unfold FullTallyPasses at hpass
    rw [← htotal, ← heq] at hpass
    omega

/-- At the threshold of two thirds, the check of a tally of at most the maximal total power does
not overflow. -/
theorem check_twoThirds (hthreshold : t.trustThreshold = .twoThirds)
    (hle : t.tallied.toNat ≤ t.total.toNat)
    (hmax : t.total.toNat ≤ Validator.Set.maxTotalVotingPower) :
    t.check = some (.ok ()) ∨ t.check = some (.error t) := by
  have hn : t.trustThreshold.numerator.toNat = 2 := by rw [hthreshold]; rfl
  have hd : t.trustThreshold.denominator.toNat = 3 := by rw [hthreshold]; rfl
  unfold Validator.Set.maxTotalVotingPower at hmax
  by_cases hlt : t.total.toNat * 2 < t.tallied.toNat * 3
  · left
    rw [VotingPowerTally.check_eq_ok, hn, hd]
    omega
  · right
    rw [VotingPowerTally.check_eq_error, hn, hd]
    exact ⟨rfl, by omega, by omega, by omega⟩

end Tally

/-! ## The checks on the full tallies -/

section Checks

variable {V : Signature.Verifier} {P : Prost} {sh : SignedHeader}

/-- `check_signers_overlap` fails with the set's tally exactly when that tally fails its check. -/
theorem checkSignersOverlap_run_eq_insufficientSignersOverlap {U : Validator.Set}
    {t : VotingPowerTally} :
    (checkSignersOverlap V P sh U).run = some (.error (.insufficientSignersOverlap t)) ↔
      (votingPowerIn V P sh U .twoThirds).run = some (.ok t) ∧ t.check = some (.error t) := by
  unfold checkSignersOverlap
  constructor
  · intro h
    rcases run_bind_eq_error.mp h with h | ⟨t₀, ht₀, h⟩
    · cases votingPowerIn_run_eq_error h
    rcases run_bind_eq_error.mp h with h | ⟨c, hc, h⟩
    · simp at h
    cases c with
    | error t' =>
      cases h
      -- the failed check returns the tally itself
      have hc := run_lift_eq_ok.mp hc
      obtain ⟨rfl, -⟩ := VotingPowerTally.check_eq_error.mp hc
      exact ⟨ht₀, hc⟩
    | ok => cases h
  · rintro ⟨ht, hchk⟩
    rw [run_bind_of_ok ht, run_bind_of_ok (run_lift_eq_ok.mpr hchk)]
    rfl

theorem checkSignersOverlap_run_of_check {U : Validator.Set} {t : VotingPowerTally}
    (ht : (votingPowerIn V P sh U .twoThirds).run = some (.ok t))
    (hchk : t.check = some (.ok ())) : (checkSignersOverlap V P sh U).run = some (.ok ()) := by
  unfold checkSignersOverlap
  rw [run_bind_of_ok ht, run_bind_of_ok (run_lift_eq_ok.mpr hchk)]
  rfl

/-- At two thirds, and for a set of at most the maximal total power, the check of a returned tally
does not overflow, so it passes exactly when the full tally passes. -/
theorem check_twoThirds_iff {U : Validator.Set} {t : VotingPowerTally}
    (ht : (votingPowerIn V P sh U .twoThirds).run = some (.ok t))
    (hmax : (U.validators.map fun v => v.power.value).sum ≤ Validator.Set.maxTotalVotingPower) :
    (t.check = some (.ok ()) ↔ FullTallyPasses V P sh U .twoThirds) ∧
      (t.check = some (.error t) ↔ ¬FullTallyPasses V P sh U .twoThirds) := by
  obtain ⟨hle, hF, hok, herr⟩ := votingPowerIn_full_tally ht
  obtain ⟨htotal, hthreshold⟩ := votingPowerIn_tally ht
  rcases check_twoThirds hthreshold (hle.trans hF) (htotal ▸ hmax) with hc | hc
  · have hpass := hok hc
    exact ⟨iff_of_true hc hpass, iff_of_false (by rw [hc]; simp) (not_not.mpr hpass)⟩
  · have hfail := (herr t hc).2
    exact ⟨iff_of_false (by rw [hc]; simp) hfail, iff_of_true hc hfail⟩

/-- `check_signers_overlap` decides on the full tally of the set: it passes exactly when the walk
returns and the full tally passes two thirds, and reports the walk's tally otherwise. -/
theorem checkSignersOverlap_full_tally {U : Validator.Set}
    (hmax : (U.validators.map fun v => v.power.value).sum ≤ Validator.Set.maxTotalVotingPower) :
    ((checkSignersOverlap V P sh U).run = some (.ok ()) ↔
        (∃ t, (votingPowerIn V P sh U .twoThirds).run = some (.ok t)) ∧
          FullTallyPasses V P sh U .twoThirds) ∧
      ∀ t, (checkSignersOverlap V P sh U).run = some (.error (.insufficientSignersOverlap t)) ↔
        (votingPowerIn V P sh U .twoThirds).run = some (.ok t) ∧
          ¬FullTallyPasses V P sh U .twoThirds := by
  refine ⟨⟨fun h => ?_, fun ⟨⟨t, ht⟩, hpass⟩ => ?_⟩, fun t => ?_⟩
  · obtain ⟨t, ht, hchk⟩ := checkSignersOverlap_run_eq_ok h
    exact ⟨⟨t, ht⟩, ((check_twoThirds_iff ht hmax).1).mp hchk⟩
  · exact checkSignersOverlap_run_of_check ht (((check_twoThirds_iff ht hmax).1).mpr hpass)
  · rw [checkSignersOverlap_run_eq_insufficientSignersOverlap]
    constructor
    · rintro ⟨ht, hchk⟩
      exact ⟨ht, ((check_twoThirds_iff ht hmax).2).mp hchk⟩
    · rintro ⟨ht, hfail⟩
      exact ⟨ht, ((check_twoThirds_iff ht hmax).2).mpr hfail⟩

/-- `check_enough_trust_and_signers` reports `InsufficientSignersOverlap` only after the trusted
tally passed, with the untrusted tally, which failed its check. -/
theorem checkEnoughTrustAndSigners_run_eq_insufficientSignersOverlap {T U : Validator.Set}
    {tt : TrustThresholdFraction} {t : VotingPowerTally}
    (h : (checkEnoughTrustAndSigners V P sh T tt U).run =
      some (.error (.insufficientSignersOverlap t))) :
    ∃ t₁, (votingPowerInSets V P sh (T, tt) (U, .twoThirds)).run = some (.ok (t₁, t)) ∧
      t₁.check = some (.ok ()) ∧ t.check = some (.error t) := by
  unfold checkEnoughTrustAndSigners at h
  rcases run_bind_eq_error.mp h with h | ⟨⟨t₁, t₂⟩, hsets, h⟩
  · exact absurd (votingPowerInSets_run_eq_error h) (by rintro ⟨⟩)
  dsimp only at h
  rcases run_bind_eq_error.mp h with h | ⟨c₁, hc₁, h⟩
  · simp at h
  cases c₁ with
  | error => cases h
  | ok =>
    rcases run_bind_eq_error.mp h with h | ⟨c₂, hc₂, h⟩
    · simp at h
    cases c₂ with
    | error t' =>
      cases h
      have hc := run_lift_eq_ok.mp hc₂
      obtain ⟨rfl, -⟩ := VotingPowerTally.check_eq_error.mp hc
      exact ⟨t₁, hsets, run_lift_eq_ok.mp hc₁, hc⟩
    | ok => cases h

/-- `check_enough_trust_and_signers` decides on the full tallies: each verdict it reports is the
verdict of the full tally of the trusted set at the trust threshold, and of the untrusted set at
two thirds, when validators of the two sets with one address have one key. -/
theorem checkEnoughTrustAndSigners_full_tally {T U : Validator.Set} {tt : TrustThresholdFraction}
    (hkeys : ∀ a ∈ T.validators, ∀ b ∈ U.validators, a.address = b.address → a.pubKey = b.pubKey) :
    ((checkEnoughTrustAndSigners V P sh T tt U).run = some (.ok ()) →
        FullTallyPasses V P sh T tt ∧ FullTallyPasses V P sh U .twoThirds) ∧
      (∀ t, (checkEnoughTrustAndSigners V P sh T tt U).run = some (.error (.notEnoughTrust t)) →
        ¬FullTallyPasses V P sh T tt) ∧
      ∀ t, (checkEnoughTrustAndSigners V P sh T tt U).run =
          some (.error (.insufficientSignersOverlap t)) →
        FullTallyPasses V P sh T tt ∧ ¬FullTallyPasses V P sh U .twoThirds := by
  refine ⟨fun h => ?_, fun t h => ?_, fun t h => ?_⟩
  · obtain ⟨t₁, t₂, hsets, hc₁, hc₂⟩ := checkEnoughTrustAndSigners_run_eq_ok h
    obtain ⟨h₁, h₂⟩ := votingPowerInSets_run_eq_ok hsets
    exact ⟨(votingPowerIn_full_tally h₁).2.2.1 hc₁, (votingPowerIn_full_tally (h₂ hkeys)).2.2.1 hc₂⟩
  · obtain ⟨t₂, hsets, hchk⟩ := checkEnoughTrustAndSigners_run_eq_notEnoughTrust.mp h
    exact ((votingPowerIn_full_tally (votingPowerInSets_run_eq_ok hsets).1).2.2.2 t hchk).2
  · obtain ⟨t₁, hsets, hc₁, hc₂⟩ := checkEnoughTrustAndSigners_run_eq_insufficientSignersOverlap h
    obtain ⟨h₁, h₂⟩ := votingPowerInSets_run_eq_ok hsets
    exact ⟨(votingPowerIn_full_tally h₁).2.2.1 hc₁,
      ((votingPowerIn_full_tally (h₂ hkeys)).2.2.2 t hc₂).2⟩

end Checks

/-- The early break never changes a verdict. A tally that `voting_power_in` returns is at most the
full tally, which is at most the set's power; its check passes only when the full tally passes the
threshold, and fails only on the full tally itself, which then does not pass. For a set of at most
the maximal total power, `check_signers_overlap` passes exactly when the full tally passes two
thirds; and when validators of the trusted and the untrusted set with one address have one key,
every verdict of `check_enough_trust_and_signers` is the verdict of the full tallies. -/
theorem early_break_keeps_full_tally_verdict (V : Signature.Verifier) (P : Prost)
    (sh : SignedHeader) (vals : Validator.Set) (tt : TrustThresholdFraction) :
    (∀ t, (votingPowerIn V P sh vals tt).run = some (.ok t) →
      t.tallied.toNat ≤ signersPower V P sh vals.validators ∧
        signersPower V P sh vals.validators ≤ t.total.toNat ∧
        (t.check = some (.ok ()) → FullTallyPasses V P sh vals tt) ∧
        ∀ t', t.check = some (.error t') →
          t.tallied.toNat = signersPower V P sh vals.validators ∧
            ¬FullTallyPasses V P sh vals tt) ∧
      ((vals.validators.map fun v => v.power.value).sum ≤ Validator.Set.maxTotalVotingPower →
        ((checkSignersOverlap V P sh vals).run = some (.ok ()) ↔
            (∃ t, (votingPowerIn V P sh vals .twoThirds).run = some (.ok t)) ∧
              FullTallyPasses V P sh vals .twoThirds) ∧
          ∀ t, (checkSignersOverlap V P sh vals).run =
              some (.error (.insufficientSignersOverlap t)) ↔
            (votingPowerIn V P sh vals .twoThirds).run = some (.ok t) ∧
              ¬FullTallyPasses V P sh vals .twoThirds) ∧
      ∀ T : Validator.Set,
        (∀ a ∈ T.validators, ∀ b ∈ vals.validators, a.address = b.address → a.pubKey = b.pubKey) →
        ((checkEnoughTrustAndSigners V P sh T tt vals).run = some (.ok ()) →
            FullTallyPasses V P sh T tt ∧ FullTallyPasses V P sh vals .twoThirds) ∧
          (∀ t, (checkEnoughTrustAndSigners V P sh T tt vals).run =
              some (.error (.notEnoughTrust t)) → ¬FullTallyPasses V P sh T tt) ∧
          ∀ t, (checkEnoughTrustAndSigners V P sh T tt vals).run =
              some (.error (.insufficientSignersOverlap t)) →
            FullTallyPasses V P sh T tt ∧ ¬FullTallyPasses V P sh vals .twoThirds :=
  ⟨fun _ h => votingPowerIn_full_tally h, checkSignersOverlap_full_tally,
    fun _ hkeys => checkEnoughTrustAndSigners_full_tally hkeys⟩

/-- Two signers of power `2^31` in a set of power `2^32`, at the accepted threshold
`1431655766/4294967296`: the walk stops after the first, whose tally passes, while
`is_enough_power` on the full tally multiplies `2^32` by `2^32` and overflows. -/
theorem votingPowerIn_check_passes_where_full_tally_overflows :
    ∃ (sh : SignedHeader) (vals : Validator.Set) (tt : TrustThresholdFraction)
      (t : VotingPowerTally),
      (vals.validators.map fun v => v.power.value).sum ≤ Validator.Set.maxTotalVotingPower ∧
        (votingPowerIn .acceptAll .empty sh vals tt).run = some (.ok t) ∧
        t.check = some (.ok ()) ∧
        t.tallied.toNat < signersPower .acceptAll .empty sh vals.validators ∧
        tt.isEnoughPower (UInt64.ofNat (signersPower .acceptAll .empty sh vals.validators))
          t.total = none := by
  let sh : SignedHeader := ⟨Header.ofHashes ⟨1, by decide⟩ .unixEpoch .none .none,
    ⟨⟨1, by decide⟩, ⟨0, by decide⟩, default,
      [.blockIdFlagCommit ⟨List.Vector.replicate 20 0⟩ .unixEpoch
          (some ⟨List.Vector.replicate 64 0⟩),
        .blockIdFlagCommit ⟨List.Vector.replicate 20 1⟩ .unixEpoch
          (some ⟨List.Vector.replicate 64 0⟩)]⟩⟩
  let vals : Validator.Set :=
    ⟨[⟨⟨List.Vector.replicate 20 0⟩, .ed25519 (List.Vector.replicate 32 0), ⟨2 ^ 31, by decide⟩,
        none, 0⟩,
      ⟨⟨List.Vector.replicate 20 1⟩, .ed25519 (List.Vector.replicate 32 0), ⟨2 ^ 31, by decide⟩,
        none, 0⟩], none, ⟨2 ^ 32, by decide⟩⟩
  let tt : TrustThresholdFraction := ⟨1431655766, 4294967296, by decide, by decide, by decide⟩
  -- the votes come out of the commit already sorted by address
  have hnew : (NonAbsentCommitVotes.new sh).run =
      some (.ok ⟨sh.commit.signatures.filterMap (commitVote sh.commit sh.header.chainId)⟩) := by
    unfold NonAbsentCommitVotes.new
    rw [run_bind_of_ok (collectVotes_run_of_signed (by decide) (by simp [sh]))]
    simp only [Slice.sortByKey]
    rw [List.mergeSort_of_pairwise (by decide)]
    rfl
  have hrun : (votingPowerIn .acceptAll .empty sh vals tt).run =
      some (.ok ⟨4294967296, 2147483648, tt⟩) := by
    unfold votingPowerIn
    rw [run_bind_of_ok hnew]
    decide +kernel
  exact ⟨sh, vals, tt, _, by decide, hrun, by decide, by decide +kernel, by decide +kernel⟩

/-! ## Sets built by `try_from_parts`

The cap that `check_signers_overlap` needs above holds of every set that `Set::try_from_parts` builds
(`Set::new`, `TryFrom<RawValidatorSet>` and deserialization all go through it), and on such a set
`total_power_of` returns the set's own total without overflowing. -/

section Canonical

open Validator

/-- `try_from_parts` succeeds exactly when the exact sum of the powers is within the cap and the
declared total is `0` or that sum; the set it builds holds a permutation of the validators in the
order power descending, then address ascending, its total is the sum, and `total_power_of` returns
that total; the set's hash does not depend on the order of validators with distinct addresses. -/
theorem tryFromParts_builds_canonical_set (H : MerkleHash) (P : Prost) (vals : List Info)
    (proposer : Option Info) (declared : Int) :
    ((∃ s, Set.tryFromParts vals proposer declared = .ok s) ↔
        (vals.map fun v => v.power.value).sum ≤ Set.maxTotalVotingPower ∧
          (declared = 0 ∨ declared = (vals.map fun v => v.power.value).sum)) ∧
      (∀ s, Set.tryFromParts vals proposer declared = .ok s →
        s.validators.Perm vals ∧
          s.validators.Pairwise (fun a b => b.power.value < a.power.value ∨
            (a.power.value = b.power.value ∧ a.address ≤ b.address)) ∧
          s.totalVotingPower.value = (vals.map fun v => v.power.value).sum ∧
          totalPowerOf s = some s.totalVotingPower.toU64) ∧
      ∀ vals', vals'.Perm vals → (vals.map fun v => v.address).Nodup →
        (Set.tryFromParts vals' proposer declared).map (Set.hashWith H P) =
          (Set.tryFromParts vals proposer declared).map (Set.hashWith H P) := by
  refine ⟨⟨?_, ?_⟩, fun s h => ?_, fun vals' hp haddr => ?_⟩
  · rintro ⟨s, hs⟩
    obtain ⟨hcap, hd, -⟩ := Set.tryFromParts_eq_ok.mp hs
    exact ⟨hcap, hd⟩
  · rintro ⟨hcap, hd⟩
    -- the set the constructor builds, whose total is a power because it is within the cap
    have hsum : (vals.map fun v => v.power.value).sum < i64Bound := by
      unfold Set.maxTotalVotingPower i64Bound at *
      omega
    exact ⟨⟨Set.sortValidators vals, proposer, ⟨_, hsum⟩⟩,
      Set.tryFromParts_eq_ok.mpr ⟨hcap, hd, rfl, rfl, rfl⟩⟩
  · obtain ⟨hperm, hcan⟩ := Set.canonical_of_tryFromParts h
    exact ⟨hperm, hcan.sorted.imp Info.sortKey_le_sortKey.mp,
      (Set.tryFromParts_eq_ok.mp h).2.2.2.2, totalPowerOf_of_canonical hcan⟩
  · rw [Set.tryFromParts_perm hp haddr]

/-- The voting-power checks of the verifier do not panic on sets that `try_from_parts` built, for a
commit of at most `2 ^ 31` signatures: `check_signers_overlap` never, and `voting_power_in` and
`check_enough_trust_and_signers` for every trust threshold whose denominator times the cap fits in
`u64` (both constants do). -/
theorem verifier_checks_never_panic_on_built_sets (V : Signature.Verifier) (P : Prost)
    (sh : SignedHeader) {valsT valsU : List Info} {proposerT proposerU : Option Info}
    {declaredT declaredU : Int} {T U : Set}
    (hT : Set.tryFromParts valsT proposerT declaredT = .ok T)
    (hU : Set.tryFromParts valsU proposerU declaredU = .ok U)
    (hlen : sh.commit.signatures.length ≤ 2 ^ 31) :
    (checkSignersOverlap V P sh U).run ≠ none ∧
      ∀ tt : TrustThresholdFraction, Set.maxTotalVotingPower * tt.denominator.toNat < 2 ^ 64 →
        (votingPowerIn V P sh T tt).run ≠ none ∧
          (checkEnoughTrustAndSigners V P sh T tt U).run ≠ none := by
  have hTc := (Set.canonical_of_tryFromParts hT).2
  have hUc := (Set.canonical_of_tryFromParts hU).2
  exact ⟨checkSignersOverlap_run_ne_none hUc hlen, fun tt htt =>
    ⟨votingPowerIn_run_ne_none hTc hlen htt, checkEnoughTrustAndSigners_run_ne_none hTc hUc hlen htt⟩⟩

/-- A set of one validator of power one, built by `Set::new`, against a commit that it signs. -/
theorem verifier_checks_never_panic_on_one_validator :
    let v : Info :=
      ⟨⟨List.Vector.replicate 20 0⟩, .ed25519 (List.Vector.replicate 32 0), ⟨1, by decide⟩, none, 0⟩
    let U : Set := ⟨Set.sortValidators [v], none, ⟨1, by decide⟩⟩
    let sh : SignedHeader := ⟨Header.ofHashes ⟨1, by decide⟩ .unixEpoch .none .none,
      ⟨⟨1, by decide⟩, ⟨0, by decide⟩, default,
        [.blockIdFlagCommit v.address .unixEpoch (some ⟨List.Vector.replicate 64 0⟩)]⟩⟩
    (checkSignersOverlap .acceptAll .empty sh U).run ≠ none ∧
      ∀ tt : TrustThresholdFraction, Set.maxTotalVotingPower * tt.denominator.toNat < 2 ^ 64 →
        (votingPowerIn .acceptAll .empty sh U tt).run ≠ none ∧
          (checkEnoughTrustAndSigners .acceptAll .empty sh U tt U).run ≠ none := by
  intro v U sh
  have hU : Set.tryFromParts [v] none 0 = .ok U :=
    Set.tryFromParts_eq_ok.mpr ⟨by decide, .inl rfl, rfl, rfl, rfl⟩
  exact verifier_checks_never_panic_on_built_sets .acceptAll .empty sh hU hU (by decide)

end Canonical

end Verifier

end Tendermint
