import Tendermint.LightClient.Components

/-!
# The light client's state

`state.rs`: the light store and the verification trace. The trace records, for a target height,
the heights of the blocks that its verification needed: `trace_block` adds a height to the entry of
a target, creating the entry with the target itself, and `get_trace` reads the entry of one target
and returns the trusted or verified blocks stored at its heights, sorted by height. A `HashSet` is
modelled by a list without repetitions, to which `List.insert` adds; the order in which it is
iterated does not matter, since `get_trace` sorts what it finds by height.
-/

namespace Tendermint

namespace LightClient

open Verifier Rust

/-- `VerificationTrace`. -/
abbrev VerificationTrace := AList fun _ : Height => List Height

/-- `State`, whose light store is a memory store. -/
structure State where
  lightStore : MemoryStore
  verificationTrace : VerificationTrace

namespace State

/-- `State::new`. -/
def new (lightStore : MemoryStore) : State := ⟨lightStore, ∅⟩

/-- `State::trace_block`, with its contract. -/
def traceBlock (self : State) (targetHeight height : Height) : Option State := do
  assert (decide (height ≤ targetHeight))
  let trace := (self.verificationTrace.lookup targetHeight).getD [targetHeight]
  pure { self with
    verificationTrace := self.verificationTrace.insert targetHeight (trace.insert height) }

/-- `State::get_trace`. -/
def getTrace (self : State) (targetHeight : Height) : List LightBlock :=
  let trace := ((self.verificationTrace.lookup targetHeight).getD []).filterMap
    self.lightStore.getTrustedOrVerified
  trace.mergeSort fun a b => decide (a.height ≤ b.height)

/-- The heights in the trace of a target. -/
def traced (self : State) (targetHeight : Height) : List Height :=
  (self.verificationTrace.lookup targetHeight).getD []

variable {self s' : State} {t h k x : Height}

theorem traceBlock_eq_none : self.traceBlock t h = none ↔ ¬ h ≤ t := by
  simp [traceBlock]

theorem traceBlock_isSome (hle : h ≤ t) : (self.traceBlock t h).isSome := by
  simp [traceBlock, hle, assert]

theorem le_of_traceBlock (hs : self.traceBlock t h = some s') : h ≤ t := by
  by_contra hn
  rw [traceBlock_eq_none.mpr hn] at hs
  cases hs

/-- `trace_block` leaves the store alone. -/
theorem lightStore_of_traceBlock (hs : self.traceBlock t h = some s') :
    s'.lightStore = self.lightStore := by
  simp only [traceBlock, Option.bind_eq_bind, Option.bind_eq_some_iff, assert_eq_some,
    Option.pure_def, Option.some.injEq] at hs
  obtain ⟨-, -, rfl⟩ := hs
  rfl

/-- `trace_block` adds the height, and the target itself, to the trace of the target. -/
theorem traced_of_traceBlock (hs : self.traceBlock t h = some s') :
    x ∈ s'.traced k ↔ x ∈ self.traced k ∨ (k = t ∧ (x = h ∨ (x = t ∧
      self.verificationTrace.lookup t = none))) := by
  simp only [traceBlock, Option.bind_eq_bind, Option.bind_eq_some_iff, assert_eq_some,
    Option.pure_def, Option.some.injEq] at hs
  obtain ⟨-, -, rfl⟩ := hs
  unfold traced
  by_cases hk : k = t
  · subst hk
    simp only [AList.lookup_insert, Option.getD_some, List.mem_insert_iff, true_and]
    cases self.verificationTrace.lookup k with
    | none => simp [or_comm]
    | some l => simp [or_comm]
  · simp [AList.lookup_insert_ne hk, hk]

/-- What the trace of a target finds: its trusted or verified blocks. -/
theorem mem_getTrace {b : LightBlock} :
    b ∈ self.getTrace t ↔ b.height ∈ self.traced t ∧
      ∃ s, .verified ≤ s ∧ self.lightStore.store.lookup b.height = some ⟨b, s⟩ := by
  simp only [getTrace, List.mem_mergeSort, List.mem_filterMap,
    MemoryStore.getTrustedOrVerified_eq_some_iff, traced]
  constructor
  · rintro ⟨k, hk, s, hs, hl⟩
    obtain rfl := MemoryStore.lookup_height hl
    exact ⟨hk, s, hs, hl⟩
  · rintro ⟨hk, s, hs, hl⟩
    exact ⟨_, hk, s, hs, hl⟩

/-- Traced blocks the store already lists by height are the trace as they are: the sort is
stable. -/
theorem getTrace_of_sorted
    (h : ((self.traced t).filterMap self.lightStore.getTrustedOrVerified).Pairwise
      fun a b => a.height ≤ b.height) :
    self.getTrace t = (self.traced t).filterMap self.lightStore.getTrustedOrVerified :=
  List.mergeSort_of_pairwise (h.imp fun hab => decide_eq_true hab)

end State

end LightClient

end Tendermint
