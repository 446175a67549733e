import Tendermint.Verifier.Predicates

/-!
# Light client attack evidence

`evidence.rs` of the light client detector: `make_evidence` forms the evidence of an attack from
the conflicting block, the trusted block and the last block the two chains have in common. The
byzantine validators it lists depend on the attack:

* a lunatic attack, where a deterministic field of the conflicting header differs from the trusted
  one: the validators of the common set that committed the conflicting block;
* an equivocation, where the two commits are of one round: the validators of the conflicting set
  that signed both commits, matched by position;
* an amnesia attack, where the rounds differ: none.

Both collection loops end with `sort_by(cmp_voting_power_then_address)`, which compares the powers
first and the addresses second, both ascending (`sortBy_cmpVotingPowerThenAddress`). That is not the
order of `Set::sort_validators`, power descending and then address ascending: a list in both orders
has all its validators at one power (`makeEvidence_sorts_power_ascending`).

The equivocation loop reads the trusted commit at the positions of the conflicting one. It panics
exactly when a signature of the conflicting commit that is not absent sits past the end of the
trusted commit, and otherwise lists the conflicting set's validators of the positions where neither
signature is absent or nil (`makeEvidence_equivocation_spec`, from the loop's two lemmas proved by
induction on the signatures left). Between commits of one length, as two commits checked against
validator sets of one length are, it never panics (`getByzantineValidators_equivocation`), and the
filter on the trusted side is `is_nil`: a validator whose trusted signature is absent is listed
when it voted in the conflicting commit, though it signed one block only.
-/

namespace Tendermint

namespace Detector

open Verifier

/-- `evidence::ConflictingBlock`. -/
structure ConflictingBlock where
  signedHeader : SignedHeader
  validatorSet : Validator.Set
deriving DecidableEq

/-- `evidence::LightClientAttackEvidence`. -/
structure LightClientAttackEvidence where
  conflictingBlock : ConflictingBlock
  commonHeight : Height
  byzantineValidators : List Validator.Info
  totalVotingPower : Power
  timestamp : Time
deriving DecidableEq

/-- `conflicting_header_is_invalid`: whether a field that a valid state transition fixes differs
between the two headers. -/
def conflictingHeaderIsInvalid (conflicted trusted : Header) : Bool :=
  trusted.validatorsHash != conflicted.validatorsHash ||
    trusted.nextValidatorsHash != conflicted.nextValidatorsHash ||
    trusted.consensusHash != conflicted.consensusHash ||
    trusted.appHash != conflicted.appHash ||
    trusted.lastResultsHash != conflicted.lastResultsHash

/-- `cmp_voting_power_then_address`. `Power` derives `Ord` from its `u64`. -/
def cmpVotingPowerThenAddress (a b : Validator.Info) : Ordering :=
  (compare a.power.value b.power.value).then (compare a.address b.address)

/-- `find_lunatic_validators`: the loop pushes the common set's validator of each commit vote. -/
def findLunaticValidators (conflicted : ConflictingBlock) (commonValidators : Validator.Set) :
    List Validator.Info :=
  Slice.sortBy cmpVotingPowerThenAddress
    (conflicted.signedHeader.commit.signatures.filterMap fun commitSig =>
      if commitSig.isCommit then commitSig.validatorAddress.bind commonValidators.validator
      else none)

/-- The loop of `find_equivocating_validators` from the `i`-th signature of the conflicting commit
on. -/
def findEquivocatingValidators.loop (conflicted : ConflictingBlock) (trusted : SignedHeader) :
    Nat → List CommitSig → Option (List Validator.Info)
  | _, [] => some []
  | i, sigA :: rest =>
    if sigA.isAbsent then loop conflicted trusted (i + 1) rest
    else do
      -- `&trusted.commit.signatures[i]` panics past the end of the trusted commit
      let sigB ← trusted.commit.signatures[i]?
      let validators ← loop conflicted trusted (i + 1) rest
      if sigB.isNil then pure validators
      else pure ((sigA.validatorAddress.bind conflicted.validatorSet.validator).toList ++ validators)

/-- `find_equivocating_validators`. -/
def findEquivocatingValidators (conflicted : ConflictingBlock) (trusted : SignedHeader) :
    Option (List Validator.Info) := do
  let validators ← findEquivocatingValidators.loop conflicted trusted 0
    conflicted.signedHeader.commit.signatures
  pure (Slice.sortBy cmpVotingPowerThenAddress validators)

/-- `get_byzantine_validators`. -/
def getByzantineValidators (conflicted : ConflictingBlock) (commonValidators : Validator.Set)
    (trusted : SignedHeader) : Option (List Validator.Info) :=
  if conflictingHeaderIsInvalid conflicted.signedHeader.header trusted.header then
    some (findLunaticValidators conflicted commonValidators)
  else if trusted.commit.round = conflicted.signedHeader.commit.round then
    findEquivocatingValidators conflicted trusted
  else some []

/-- `make_evidence`. -/
def makeEvidence (conflicted trusted common : LightBlock) : Option LightClientAttackEvidence := do
  let headerIsInvalid :=
    conflictingHeaderIsInvalid conflicted.signedHeader.header trusted.signedHeader.header
  let conflictingBlock : ConflictingBlock := ⟨conflicted.signedHeader, conflicted.validators⟩
  let byzantineValidators ←
    getByzantineValidators conflictingBlock common.validators trusted.signedHeader
  let witness := if headerIsInvalid then common else trusted
  pure ⟨conflictingBlock, witness.height, byzantineValidators, witness.validators.totalVotingPower,
    witness.time⟩

/-! ## The order of the byzantine validators -/

/-- The key `cmp_voting_power_then_address` compares by: the power, then the address. -/
def powerThenAddress (v : Validator.Info) : Lex (ℕ × AccountId) :=
  toLex (v.power.value, v.address)

/-- The key of `cmp_voting_power_then_address` orders by power, then by address. -/
theorem powerThenAddress_le_iff {a b : Validator.Info} :
    powerThenAddress a ≤ powerThenAddress b ↔
      a.power.value < b.power.value ∨ (a.power.value = b.power.value ∧ a.address ≤ b.address) :=
  Prod.Lex.toLex_le_toLex

/-- `cmp_voting_power_then_address` answers `Greater` exactly when the key of its first argument is
above the key of its second. -/
theorem cmpVotingPowerThenAddress_ne_gt (a b : Validator.Info) :
    cmpVotingPowerThenAddress a b ≠ .gt ↔ powerThenAddress a ≤ powerThenAddress b := by
  rw [powerThenAddress_le_iff, cmpVotingPowerThenAddress]
  rcases h : compare a.power.value b.power.value with _ | _ | _
  · -- a lower power comes first, whatever the addresses
    have hlt : a.power.value < b.power.value := Nat.compare_eq_lt.mp h
    simp [Ordering.then, hlt]
  · -- equal powers: the addresses decide
    have heq : a.power.value = b.power.value := Nat.compare_eq_eq.mp h
    rw [Ordering.eq_then, ne_eq, compare_gt_iff_gt, not_lt]
    simp [heq]
  · have hgt : b.power.value < a.power.value := Nat.compare_eq_gt.mp h
    simp only [Ordering.then, ne_eq, not_true_eq_false, false_iff, not_or, not_and]
    exact ⟨Nat.not_lt_of_gt hgt, fun he => absurd he (Nat.ne_of_gt hgt)⟩

/-- Sorting by the comparator is sorting by its key. -/
theorem sortBy_cmpVotingPowerThenAddress (l : List Validator.Info) :
    Slice.sortBy cmpVotingPowerThenAddress l = Slice.sortByKey powerThenAddress l :=
  Slice.sortBy_eq_sortByKey cmpVotingPowerThenAddress_ne_gt l

/-- What `sort_by(cmp_voting_power_then_address)` leaves: a permutation of its input, by power
ascending and then by address ascending. -/
theorem sortBy_cmpVotingPowerThenAddress_sorted (l : List Validator.Info) :
    (Slice.sortBy cmpVotingPowerThenAddress l).Perm l ∧
      (Slice.sortBy cmpVotingPowerThenAddress l).Pairwise fun a b =>
        a.power.value < b.power.value ∨ (a.power.value = b.power.value ∧ a.address ≤ b.address) := by
  rw [sortBy_cmpVotingPowerThenAddress]
  exact ⟨Slice.sortByKey_perm _ l,
    (Slice.sortByKey_sorted powerThenAddress l).imp powerThenAddress_le_iff.mp⟩

section Sorted

variable {conflicted : ConflictingBlock} {trusted : SignedHeader} {commonValidators : Validator.Set}
  {validators : List Validator.Info}

/-- The list each of the three attacks gives is sorted by `cmp_voting_power_then_address`. -/
theorem getByzantineValidators_sorted
    (h : getByzantineValidators conflicted commonValidators trusted = some validators) :
    validators.Pairwise fun a b =>
      a.power.value < b.power.value ∨ (a.power.value = b.power.value ∧ a.address ≤ b.address) := by
  unfold getByzantineValidators at h
  split at h
  · -- lunatic
    cases h
    exact (sortBy_cmpVotingPowerThenAddress_sorted _).2
  · split at h
    · -- equivocation
      obtain ⟨collected, -, h⟩ := Option.bind_eq_some_iff.mp h
      cases h
      exact (sortBy_cmpVotingPowerThenAddress_sorted collected).2
    · -- amnesia
      cases h
      exact List.Pairwise.nil

/-- A lunatic attack: the evidence lists the common set's validators that committed the conflicting
block, and takes its height, total power and time from the common block. -/
theorem makeEvidence_of_invalid {conflicted trusted common : LightBlock}
    (h : conflictingHeaderIsInvalid conflicted.signedHeader.header trusted.signedHeader.header) :
    makeEvidence conflicted trusted common =
      some ⟨⟨conflicted.signedHeader, conflicted.validators⟩, common.height,
        findLunaticValidators ⟨conflicted.signedHeader, conflicted.validators⟩ common.validators,
        common.validators.totalVotingPower, common.time⟩ := by
  unfold makeEvidence getByzantineValidators
  dsimp only
  rw [if_pos h, if_pos h]
  rfl

/-- The evidence made lists the byzantine validators that `get_byzantine_validators` finds. -/
theorem makeEvidence_byzantineValidators {conflicted trusted common : LightBlock}
    {ev : LightClientAttackEvidence} (h : makeEvidence conflicted trusted common = some ev) :
    getByzantineValidators ⟨conflicted.signedHeader, conflicted.validators⟩ common.validators
      trusted.signedHeader = some ev.byzantineValidators := by
  unfold makeEvidence at h
  obtain ⟨validators, hv, h⟩ := Option.bind_eq_some_iff.mp h
  cases h
  exact hv

end Sorted

/-- A list sorted by `cmp_voting_power_then_address` is also in the order of `Set::sort_validators`
exactly when all its validators have one power. -/
theorem pairwise_canonical_iff_of_ascending {l : List Validator.Info}
    (hasc : l.Pairwise fun a b =>
      a.power.value < b.power.value ∨ (a.power.value = b.power.value ∧ a.address ≤ b.address)) :
    (l.Pairwise fun a b =>
        b.power.value < a.power.value ∨ (a.power.value = b.power.value ∧ a.address ≤ b.address)) ↔
      l.Pairwise fun a b => a.power.value = b.power.value := by
  constructor
  · -- each pair is ordered both ways by power
    intro hdesc
    exact (hasc.and hdesc).imp fun ⟨h₁, h₂⟩ => by omega
  · intro heq
    refine (hasc.and heq).imp ?_
    rintro a b ⟨h | h, he⟩
    · omega
    · exact .inr h

/-- The byzantine validators of every evidence `make_evidence` forms, in the lunatic and in the
equivocation case alike, are sorted by power ascending and then by address ascending. So they are
in the order of `Set::sort_validators`, by power descending, only when they all have one power. -/
theorem makeEvidence_sorts_power_ascending {conflicted trusted common : LightBlock}
    {ev : LightClientAttackEvidence} (h : makeEvidence conflicted trusted common = some ev) :
    ev.byzantineValidators.Pairwise (fun a b => a.power.value < b.power.value ∨
        (a.power.value = b.power.value ∧ a.address ≤ b.address)) ∧
      (ev.byzantineValidators.Pairwise (fun a b => b.power.value < a.power.value ∨
          (a.power.value = b.power.value ∧ a.address ≤ b.address)) ↔
        ev.byzantineValidators.Pairwise fun a b => a.power.value = b.power.value) := by
  have hasc := getByzantineValidators_sorted (makeEvidence_byzantineValidators h)
  exact ⟨hasc, pairwise_canonical_iff_of_ascending hasc⟩

namespace Attack

/-- The validator of power two. -/
def validatorA : Validator.Info :=
  ⟨⟨List.Vector.replicate 20 0⟩, .ed25519 (List.Vector.replicate 32 0), .fromU8 2, none, 0⟩

/-- The validator of power one. -/
def validatorB : Validator.Info :=
  ⟨⟨List.Vector.replicate 20 1⟩, .ed25519 (List.Vector.replicate 32 0), .fromU8 1, none, 0⟩

/-- The common set, in its canonical order. -/
def commonSet : Validator.Set := ⟨[validatorA, validatorB], none, .fromU8 3⟩

/-- A block at height two committed by both validators, with the given validators hash. -/
def block (validatorsHash : Hash) : LightBlock :=
  ⟨⟨Header.ofHashes (.fromU8 2) .unixEpoch validatorsHash .none,
      ⟨.fromU8 2, .fromU8 0, default,
        [.blockIdFlagCommit validatorB.address .unixEpoch none,
          .blockIdFlagCommit validatorA.address .unixEpoch none]⟩⟩,
    commonSet, commonSet, ⟨List.Vector.replicate 20 0⟩⟩

end Attack

/-- A lunatic attack whose conflicting header names another validator set, committed by the two
validators of the common set: the evidence lists the validator of power one first. -/
theorem makeEvidence_lists_lighter_validator_first :
    makeEvidence (Attack.block (.sha256 (List.Vector.replicate 32 1))) (Attack.block .none)
        (Attack.block .none) =
      some ⟨⟨(Attack.block (.sha256 (List.Vector.replicate 32 1))).signedHeader, Attack.commonSet⟩,
        ⟨2, by decide⟩, [Attack.validatorB, Attack.validatorA], ⟨3, by decide⟩, .unixEpoch⟩ ∧
      ¬[Attack.validatorB, Attack.validatorA].Pairwise fun a b =>
        b.power.value < a.power.value ∨ (a.power.value = b.power.value ∧ a.address ≤ b.address) := by
  have hmake : makeEvidence (Attack.block (.sha256 (List.Vector.replicate 32 1)))
      (Attack.block .none) (Attack.block .none) =
        some ⟨⟨(Attack.block (.sha256 (List.Vector.replicate 32 1))).signedHeader,
          Attack.commonSet⟩, ⟨2, by decide⟩, [Attack.validatorB, Attack.validatorA], ⟨3, by decide⟩,
          .unixEpoch⟩ := by
    rw [makeEvidence_of_invalid (by decide), findLunaticValidators, sortBy_cmpVotingPowerThenAddress,
      Slice.sortByKey, List.mergeSort_of_pairwise (by decide)]
    rfl
  refine ⟨hmake, fun hdesc => ?_⟩
  -- the order of `Set::sort_validators` would need the two powers to be equal
  have heq := (makeEvidence_sorts_power_ascending hmake).2.mp hdesc
  have hpow : Attack.validatorB.power.value = Attack.validatorA.power.value :=
    List.rel_of_pairwise_cons heq List.mem_cons_self
  exact absurd hpow (by decide)

/-! ## The equivocation loop

`find_equivocating_validators` walks the conflicting commit by position. A signature that is not
absent makes it read the trusted commit at the same position, which panics past its end; where the
trusted signature is not nil, the conflicting set's validator of the signature's address, if there
is one, is pushed. The two lemmas below say this of every position, by induction on the signatures
left, with `i` the position of the first of them. -/

namespace findEquivocatingValidators

variable {conflicted : ConflictingBlock} {trusted : SignedHeader}

/-- The equivocation loop panics exactly when a non-absent signature's index is past the trusted
commit's signatures. -/
theorem loop_eq_none_iff :
    ∀ (rest : List CommitSig) (i : Nat), loop conflicted trusted i rest = none ↔
      ∃ j, ∃ hj : j < rest.length, rest[j].isAbsent = false ∧
        trusted.commit.signatures.length ≤ i + j
  | [], i => by simp [loop]
  | sigA :: rest, i => by
    rw [Slice.exists_getElem_cons (P := fun k (sig : CommitSig) => sig.isAbsent = false ∧
      trusted.commit.signatures.length ≤ k), ← loop_eq_none_iff rest (i + 1), loop]
    cases ha : sigA.isAbsent with
    | true =>
      -- an absent signature is skipped: only the rest can panic
      simp
    | false =>
      rw [if_neg Bool.false_ne_true]
      cases hB : trusted.commit.signatures[i]? with
      | none =>
        -- the trusted commit ends before position `i`: the indexing panics
        have hlen : trusted.commit.signatures.length ≤ i := List.getElem?_eq_none_iff.mp hB
        simp [hlen]
      | some sigB =>
        -- the indexing succeeds, and the loop over the rest decides
        have hlt : i < trusted.commit.signatures.length := (List.getElem?_eq_some_iff.mp hB).1
        simp only [Option.bind_eq_bind, Option.bind_some, Option.pure_def,
          Nat.not_le_of_gt hlt, and_false, false_or]
        cases loop conflicted trusted (i + 1) rest with
        | none => exact iff_of_true rfl rfl
        | some l =>
          simp only [Option.bind_some, reduceCtorEq, iff_false]
          split <;> simp

/-- The validators the equivocation loop lists are those of the non-absent signatures whose trusted
signature at the same index is not nil. -/
theorem mem_loop :
    ∀ (rest : List CommitSig) (i : Nat) (l : List Validator.Info),
      loop conflicted trusted i rest = some l → ∀ v, v ∈ l ↔
        ∃ j, ∃ hj : j < rest.length, rest[j].isAbsent = false ∧
          (∃ sigB, trusted.commit.signatures[i + j]? = some sigB ∧ sigB.isNil = false) ∧
          rest[j].validatorAddress.bind conflicted.validatorSet.validator = some v
  | [], i, l, h, v => by
    simp only [loop, Option.some.injEq] at h
    subst h
    simp
  | sigA :: rest, i, l, h, v => by
    rw [Slice.exists_getElem_cons (P := fun k (sig : CommitSig) => sig.isAbsent = false ∧
      (∃ sigB, trusted.commit.signatures[k]? = some sigB ∧ sigB.isNil = false) ∧
      sig.validatorAddress.bind conflicted.validatorSet.validator = some v)]
    rw [loop] at h
    cases ha : sigA.isAbsent with
    | true =>
      -- an absent signature pushes nothing
      rw [if_pos ha] at h
      simp [mem_loop rest (i + 1) l h v]
    | false =>
      rw [if_neg (by rw [ha]; exact Bool.false_ne_true)] at h
      cases hB : trusted.commit.signatures[i]? with
      | none =>
        rw [hB] at h
        cases h
      | some sigB =>
        simp only [hB, Option.bind_eq_bind, Option.bind_some, Option.pure_def] at h
        obtain ⟨l', hl', hl⟩ := Option.bind_eq_some_iff.mp h
        -- what the position `i` contributes, next to what the rest of the loop pushes
        have hhead : v ∈ l ↔ (sigB.isNil = false ∧
            sigA.validatorAddress.bind conflicted.validatorSet.validator = some v) ∨ v ∈ l' := by
          cases hn : sigB.isNil with
          | true =>
            rw [if_pos hn, Option.some.injEq] at hl
            subst hl
            simp
          | false =>
            rw [if_neg (by rw [hn]; exact Bool.false_ne_true), Option.some.injEq] at hl
            subst hl
            simp [Option.mem_toList, eq_comm]
        rw [hhead, mem_loop rest (i + 1) l' hl' v]
        simp

end findEquivocatingValidators

section Equivocating

variable {conflicted : ConflictingBlock} {commonValidators : Validator.Set} {trusted : SignedHeader}

/-- Where the fixed header fields agree and the rounds are equal, `get_byzantine_validators` is
`find_equivocating_validators`. -/
theorem getByzantineValidators_eq_findEquivocatingValidators
    (hvalid : conflictingHeaderIsInvalid conflicted.signedHeader.header trusted.header = false)
    (hround : trusted.commit.round = conflicted.signedHeader.commit.round) :
    getByzantineValidators conflicted commonValidators trusted =
      findEquivocatingValidators conflicted trusted := by
  rw [getByzantineValidators, if_neg (by rw [hvalid]; exact Bool.false_ne_true), if_pos hround]

/-- The sort never panics, so `find_equivocating_validators` panics where its loop does. -/
theorem findEquivocatingValidators_eq_none_iff :
    findEquivocatingValidators conflicted trusted = none ↔
      ∃ j, ∃ hj : j < conflicted.signedHeader.commit.signatures.length,
        conflicted.signedHeader.commit.signatures[j].isAbsent = false ∧
          trusted.commit.signatures.length ≤ j := by
  have hloop := @findEquivocatingValidators.loop_eq_none_iff conflicted trusted
    conflicted.signedHeader.commit.signatures 0
  simp only [Nat.zero_add] at hloop
  rw [findEquivocatingValidators, ← hloop]
  cases findEquivocatingValidators.loop conflicted trusted 0
    conflicted.signedHeader.commit.signatures <;> simp

/-- The sort keeps the validators the loop pushed. -/
theorem mem_findEquivocatingValidators {byz : List Validator.Info}
    (h : findEquivocatingValidators conflicted trusted = some byz) (v : Validator.Info) :
    v ∈ byz ↔ ∃ j, ∃ hj : j < conflicted.signedHeader.commit.signatures.length,
      conflicted.signedHeader.commit.signatures[j].isAbsent = false ∧
      (∃ sigB, trusted.commit.signatures[j]? = some sigB ∧ sigB.isNil = false) ∧
      conflicted.signedHeader.commit.signatures[j].validatorAddress.bind
        conflicted.validatorSet.validator = some v := by
  obtain ⟨l, hl, hsort⟩ := Option.bind_eq_some_iff.mp h
  rw [Option.pure_def, Option.some.injEq] at hsort
  subst hsort
  have hmem := findEquivocatingValidators.mem_loop _ 0 l hl v
  simp only [Nat.zero_add] at hmem
  rw [(sortBy_cmpVotingPowerThenAddress_sorted l).1.mem_iff, hmem]

/-- An equivocation between two commits of one length, as two commits checked against validator
sets of one length are: `get_byzantine_validators` does not panic, and lists the conflicting set's
validators of the positions where the conflicting signature is not absent and the trusted one is
not nil. A nil vote in the conflicting commit is listed, and so is a position that is absent from
the trusted commit. -/
theorem getByzantineValidators_equivocation
    (hvalid : conflictingHeaderIsInvalid conflicted.signedHeader.header trusted.header = false)
    (hround : trusted.commit.round = conflicted.signedHeader.commit.round)
    (hlen : trusted.commit.signatures.length = conflicted.signedHeader.commit.signatures.length) :
    ∃ byz, getByzantineValidators conflicted commonValidators trusted = some byz ∧
      ∀ v, v ∈ byz ↔ ∃ j, ∃ hj : j < conflicted.signedHeader.commit.signatures.length,
        conflicted.signedHeader.commit.signatures[j].isAbsent = false ∧
        (∃ sigB, trusted.commit.signatures[j]? = some sigB ∧ sigB.isNil = false) ∧
        conflicted.signedHeader.commit.signatures[j].validatorAddress.bind
          conflicted.validatorSet.validator = some v := by
  rw [getByzantineValidators_eq_findEquivocatingValidators hvalid hround]
  cases hfind : findEquivocatingValidators conflicted trusted with
  | none =>
    -- a panic needs a position past the end of the trusted commit
    obtain ⟨j, hj, -, hle⟩ := findEquivocatingValidators_eq_none_iff.mp hfind
    omega
  | some byz => exact ⟨byz, rfl, mem_findEquivocatingValidators hfind⟩

end Equivocating

namespace Attack

/-- The signed header at height two of the attack, whose commit of round zero holds the given
signatures. -/
def signedHeader (signatures : List CommitSig) : SignedHeader :=
  ⟨Header.ofHashes (.fromU8 2) .unixEpoch .none .none, ⟨.fromU8 2, .fromU8 0, default, signatures⟩⟩

end Attack

/-- Both validators commit the conflicting block, and the trusted commit, which holds no vote of
`A`, is as valid against the same set: `A` is listed, although it signed one block only. -/
theorem getByzantineValidators_lists_absent_signer :
    VerificationPredicates.validCommit
        (Attack.signedHeader [.blockIdFlagCommit Attack.validatorA.address .unixEpoch none,
          .blockIdFlagCommit Attack.validatorB.address .unixEpoch none]) Attack.commonSet = .ok () ∧
      VerificationPredicates.validCommit (Attack.signedHeader [.blockIdFlagAbsent,
          .blockIdFlagCommit Attack.validatorB.address .unixEpoch none]) Attack.commonSet = .ok () ∧
      ∃ byz, getByzantineValidators
          ⟨Attack.signedHeader [.blockIdFlagCommit Attack.validatorA.address .unixEpoch none,
            .blockIdFlagCommit Attack.validatorB.address .unixEpoch none], Attack.commonSet⟩
          Attack.commonSet (Attack.signedHeader [.blockIdFlagAbsent,
            .blockIdFlagCommit Attack.validatorB.address .unixEpoch none]) = some byz ∧
        Attack.validatorA ∈ byz := by
  obtain ⟨byz, hbyz, hmem⟩ := @getByzantineValidators_equivocation
    ⟨Attack.signedHeader [.blockIdFlagCommit Attack.validatorA.address .unixEpoch none,
      .blockIdFlagCommit Attack.validatorB.address .unixEpoch none], Attack.commonSet⟩
    Attack.commonSet (Attack.signedHeader [.blockIdFlagAbsent,
      .blockIdFlagCommit Attack.validatorB.address .unixEpoch none]) (by decide) rfl rfl
  refine ⟨rfl, rfl, byz, hbyz, (hmem Attack.validatorA).mpr ⟨0, by decide, rfl, ⟨_, rfl, rfl⟩, ?_⟩⟩
  decide

section Equivocation

variable {conflicted trusted common : LightBlock}

/-- An equivocation: the evidence lists what `find_equivocating_validators` finds, and takes its
height, total power and time from the trusted block. -/
theorem makeEvidence_of_equivocation
    (hvalid : conflictingHeaderIsInvalid conflicted.signedHeader.header
      trusted.signedHeader.header = false)
    (hround : trusted.signedHeader.commit.round = conflicted.signedHeader.commit.round) :
    makeEvidence conflicted trusted common =
      (findEquivocatingValidators ⟨conflicted.signedHeader, conflicted.validators⟩
        trusted.signedHeader).map fun byzantineValidators =>
          ⟨⟨conflicted.signedHeader, conflicted.validators⟩, trusted.height, byzantineValidators,
            trusted.validators.totalVotingPower, trusted.time⟩ := by
  have hne : conflictingHeaderIsInvalid conflicted.signedHeader.header
      trusted.signedHeader.header ≠ true := by
    rw [hvalid]
    exact Bool.false_ne_true
  unfold makeEvidence getByzantineValidators
  dsimp only
  rw [if_neg hne, if_pos hround, if_neg hne]
  cases findEquivocatingValidators ⟨conflicted.signedHeader, conflicted.validators⟩
    trusted.signedHeader <;> rfl

/-- In an equivocation, `make_evidence` panics exactly when a signature of the conflicting commit
that is not absent has no counterpart in the trusted commit; otherwise it lists the conflicting
set's validators of the signatures that are not absent at a position where the trusted signature is
not nil. -/
theorem makeEvidence_equivocation_spec
    (hvalid : conflictingHeaderIsInvalid conflicted.signedHeader.header
      trusted.signedHeader.header = false)
    (hround : trusted.signedHeader.commit.round = conflicted.signedHeader.commit.round) :
    (makeEvidence conflicted trusted common = none ↔
        ∃ j, ∃ hj : j < conflicted.signedHeader.commit.signatures.length,
          conflicted.signedHeader.commit.signatures[j].isAbsent = false ∧
            trusted.signedHeader.commit.signatures.length ≤ j) ∧
      ∀ ev, makeEvidence conflicted trusted common = some ev → ∀ v,
        v ∈ ev.byzantineValidators ↔
          ∃ j, ∃ hj : j < conflicted.signedHeader.commit.signatures.length,
            conflicted.signedHeader.commit.signatures[j].isAbsent = false ∧
            (∃ sigB, trusted.signedHeader.commit.signatures[j]? = some sigB ∧
              sigB.isNil = false) ∧
            conflicted.signedHeader.commit.signatures[j].validatorAddress.bind
              conflicted.validators.validator = some v := by
  rw [makeEvidence_of_equivocation hvalid hround, Option.map_eq_none_iff]
  refine ⟨findEquivocatingValidators_eq_none_iff, fun ev h v => ?_⟩
  obtain ⟨byz, hfind, rfl⟩ := Option.map_eq_some_iff.mp h
  exact mem_findEquivocatingValidators hfind v

namespace Attack

/-- A block with the header of `block .none` and a commit without signatures. -/
def unsigned : LightBlock :=
  ⟨⟨(block .none).signedHeader.header, ⟨.fromU8 2, .fromU8 0, default, []⟩⟩, commonSet,
    commonSet, ⟨List.Vector.replicate 20 0⟩⟩

end Attack

/-- Evidence of an equivocation against a trusted block whose commit holds no signature panics on
the first signature of the conflicting commit. -/
theorem makeEvidence_panics_on_shorter_trusted_commit :
    makeEvidence (Attack.block .none) Attack.unsigned (Attack.block .none) = none :=
  (makeEvidence_equivocation_spec
    (show conflictingHeaderIsInvalid (Attack.block .none).signedHeader.header
      Attack.unsigned.signedHeader.header = false by decide) rfl).1.mpr
    ⟨0, by decide, rfl, by decide⟩

end Equivocation

end Detector

end Tendermint
