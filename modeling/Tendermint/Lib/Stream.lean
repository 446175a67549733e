import Mathlib

/-!
# Streams: a queue, the traces of a labelled step, and simulation

A stream that one party writes to and another reads from is specified by a queue (`Queue.Step`):
a write appends its data and reports its length, and a read of at most `n` items, enabled while the
queue is not empty, takes a non-empty prefix of it (`Read`). Along every trace of the queue, what
the reads returned, put together, followed by what is left, is what was written
(`Queue.Trace.data`): no item is lost, duplicated or reordered.

An implementation is a function of its state and an input that panics (`none`), or returns a
result and its next state. `Simulation` says that each of its successful calls, from a state
related to a state of the specification, is a step of the specification with the same output,
to related states; `Simulation.trace` lifts this to every run of successful calls.
-/

namespace Stream

variable {σ τ ι ο ε α : Type}

/-- The runs of a labelled step relation: the inputs, in order, and the outputs. -/
inductive Trace (step : σ → ι → ο → σ → Prop) : σ → List ι → List ο → σ → Prop
  | nil (s : σ) : Trace step s [] [] s
  | cons {s s' s'' : σ} {i : ι} {o : ο} {is : List ι} {os : List ο} :
      step s i o s' → Trace step s' is os s'' → Trace step s (i :: is) (o :: os) s''

/-- The successful calls of an implementation, as a labelled step relation. -/
def Succeeds (impl : σ → ι → Option (Except ε ο × σ)) (s : σ) (i : ι) (o : ο) (s' : σ) : Prop :=
  impl s i = some (.ok o, s')

/-- The calls of an implementation that return, whether they fail or not, as a labelled step
relation whose labels are the results. -/
def Returns (impl : σ → ι → Option (Except ε ο × σ)) (s : σ) (i : ι) (r : Except ε ο)
    (s' : σ) : Prop :=
  impl s i = some (r, s')

/-- An invariant of the inputs received so far and the state, kept by every step, holds at the
end of every trace. -/
theorem Trace.invariant {step : σ → ι → ο → σ → Prop} {P : List ι → σ → Prop}
    (hstep : ∀ {hist s i o s'}, step s i o s' → P hist s → P (hist ++ [i]) s')
    {s s' : σ} {is : List ι} {os : List ο} (h : Trace step s is os s') :
    ∀ {hist}, P hist s → P (hist ++ is) s' := by
  induction h with
  | nil => exact fun hP => by rwa [List.append_nil]
  | cons hs _ ih =>
    intro hist hP
    have := ih (hstep hs hP)
    rwa [List.append_assoc, List.singleton_append] at this

/-! ## The queue -/

/-- A read of at most `n` items from the queue `q`: it returns `out`, a prefix of `q` that is not
empty unless `q` is, and leaves `q'`. -/
structure Read (n : Nat) (q out q' : List α) : Prop where
  split : q = out ++ q'
  length_le : out.length ≤ n
  ne_nil : q ≠ [] → out ≠ []

namespace Queue

/-- What a party asks of the stream. -/
inductive Event (α : Type) where
  | write (data : List α)
  | read (n : Nat)

/-- What the stream answers. -/
inductive Output (α : Type) where
  | written (n : Nat)
  | read (out : List α)

/-- The items an event writes. -/
def Event.data : Event α → List α
  | .write data => data
  | .read _ => []

/-- The items an output returns. -/
def Output.data : Output α → List α
  | .written _ => []
  | .read out => out

/-- A step of the queue. A read waits while the queue is empty. -/
inductive Step : List α → Event α → Output α → List α → Prop
  | write (q data : List α) : Step q (.write data) (.written data.length) (q ++ data)
  | read {q out q' : List α} (n : Nat) : q ≠ [] → Read n q out q' → Step q (.read n) (.read out) q'

/-- One step: what it returns, followed by the queue it leaves, is the queue followed by what it
writes. -/
theorem Step.data {q q' : List α} {e : Event α} {o : Output α} (h : Step q e o q') :
    o.data ++ q' = q ++ e.data := by
  cases h with
  | write => simp [Event.data, Output.data]
  | read _ _ hread => simp [Event.data, Output.data, hread.split]

/-- No item is lost, duplicated or reordered: along a trace, what the reads return, followed by the
queue left, is the queue at the start followed by what the writes wrote. -/
theorem Trace.data {q q' : List α} {es : List (Event α)} {os : List (Output α)}
    (h : Trace Step q es os q') :
    (os.map Output.data).flatten ++ q' = q ++ (es.map Event.data).flatten := by
  induction h with
  | nil => simp
  | @cons q₀ q₁ q₂ e o es os hstep _ ih =>
    calc ((o :: os).map Output.data).flatten ++ q₂
        = o.data ++ ((os.map Output.data).flatten ++ q₂) := by simp
      _ = o.data ++ q₁ ++ (es.map Event.data).flatten := by rw [ih, List.append_assoc]
      _ = q₀ ++ ((e :: es).map Event.data).flatten := by simp [hstep.data]

/-- What the stream answers to an event: a write reports the length of its data, and a read
returns at least one item and at most its size. -/
def Answers : Event α → Output α → Prop
  | .write data, .written n => n = data.length
  | .read n, .read out => out ≠ [] ∧ out.length ≤ n
  | _, _ => False

theorem Step.answers {q q' : List α} {e : Event α} {o : Output α} (h : Step q e o q') :
    Answers e o := by
  cases h with
  | write => exact rfl
  | read _ hq hread => exact ⟨hread.ne_nil hq, hread.length_le⟩

/-- Along a trace, the stream answers each event as it should. -/
theorem Trace.answers {q q' : List α} {es : List (Event α)} {os : List (Output α)}
    (h : Trace Step q es os q') : List.Forall₂ Answers es os := by
  induction h with
  | nil => exact .nil
  | cons hstep _ ih => exact .cons hstep.answers ih

end Queue

/-! ## Simulation -/

/-- The implementation `impl` simulates the specification `spec` on the inputs `Allowed` admits,
under the relation `R` of their states. -/
structure Simulation (impl : σ → ι → Option (Except ε ο × σ)) (spec : τ → ι → ο → τ → Prop)
    (Allowed : ι → Prop) (R : σ → τ → Prop) : Prop where
  step : ∀ {s t i o s'}, R s t → Allowed i → impl s i = some (.ok o, s') →
    ∃ t', spec t i o t' ∧ R s' t'

variable {impl : σ → ι → Option (Except ε ο × σ)} {spec : τ → ι → ο → τ → Prop}
  {Allowed : ι → Prop} {R : σ → τ → Prop}

/-- Every run of successful calls on admitted inputs is a trace of the specification, with the
same outputs, from any related state. -/
theorem Simulation.trace (hsim : Simulation impl spec Allowed R) {s s' : σ} {is : List ι}
    {os : List ο} (h : Trace (Succeeds impl) s is os s') (hallowed : ∀ i ∈ is, Allowed i) :
    ∀ {t : τ}, R s t → ∃ t', Trace spec t is os t' ∧ R s' t' := by
  induction h with
  | nil => exact fun hR => ⟨_, .nil _, hR⟩
  | cons hcall _ ih =>
    intro t hR
    obtain ⟨t₁, hspec, hR₁⟩ := hsim.step hR (hallowed _ List.mem_cons_self) hcall
    obtain ⟨t', htrace, hR'⟩ := ih (fun i hi => hallowed i (List.mem_cons_of_mem _ hi)) hR₁
    exact ⟨t', .cons hspec htrace, hR'⟩

end Stream
