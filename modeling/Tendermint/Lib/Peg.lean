import Mathlib

/-!
# Parsing expressions

A parsing expression over tokens `τ` reads a prefix of its input: it fails, or gives a value and
what is left of the input. Sequencing is the monad of `StateT (List τ) Option`, and ordered choice
is its `<|>`, which backtracks: the second alternative reads the input the first one was given.
The other primitives are those of a PEG: a literal, a token of a class, the greedy repetitions of
a class, the tokens an expression read (`slice`), an action that may fail (`guardMap`), an option,
an exact count, separated repetition, and a rule that has to read its whole input (`parse`).

Two kinds of lemma serve the proofs about a grammar. The shape lemmas say what a primitive reads
from an input of a given form (`lit_append`, `span_append`, `slice_of_eq_some`), so that a proof
that a rule reads a printed text back follows the printer piece by piece. `Yields` says that every
value an expression gives has a property, with one rule per combinator, so that a property of
every parse is proved along the structure of the grammar.
-/

/-- A parsing expression over tokens `τ` with values in `α`. -/
abbrev Peg (τ α : Type) : Type := StateT (List τ) Option α

namespace Peg

variable {τ α β : Type}

/-! ## Primitives -/

/-- A literal: the tokens of `s`, in order. -/
def lit [DecidableEq τ] : List τ → Peg τ Unit
  | [] => pure ()
  | c :: s => fun
    | c' :: input => if c = c' then lit s input else none
    | [] => none

/-- A token of the class `p`. -/
def sat (p : τ → Bool) : Peg τ τ := fun
  | c :: input => if p c then some (c, input) else none
  | [] => none

/-- `[p]*`: the longest prefix of tokens of the class `p`. -/
def span (p : τ → Bool) : Peg τ (List τ) := fun input =>
  some (input.takeWhile p, input.dropWhile p)

/-- `e {? f}`: the value of `e` through `f`; the expression fails where `f` does. -/
def guardMap (e : Peg τ α) (f : α → Option β) : Peg τ β := fun input =>
  (e input).bind fun r => (f r.1).map (·, r.2)

/-- `[p]+`. -/
def span1 (p : τ → Bool) : Peg τ (List τ) :=
  guardMap (span p) fun s => if s.isEmpty then none else some s

/-- `$(e)`: the tokens `e` read. -/
def slice (e : Peg τ α) : Peg τ (List τ) := fun input =>
  (e input).map fun r => (input.take (input.length - r.2.length), r.2)

/-- `e?`. -/
def opt (e : Peg τ α) : Peg τ (Option α) := (some <$> e) <|> pure none

/-- `e*<n>`: exactly `n` of `e`. -/
def count (e : Peg τ α) : Nat → Peg τ (List α)
  | 0 => pure []
  | n + 1 => do
    let a ← e
    let as ← count e n
    pure (a :: as)

/-- The elements after the first of `e ** sep`, at most `fuel` of them: each is read after a
separator, and the repetition stops, before that separator, where either fails. -/
def sepByTail (e : Peg τ α) (sep : Peg τ Unit) : Nat → Peg τ (List α)
  | 0 => pure []
  | fuel + 1 =>
    (do
      sep
      let a ← e
      let as ← sepByTail e sep fuel
      pure (a :: as)) <|> pure []

/-- `e ** sep`: zero or more of `e`, separated by `sep`. When every separator reads a token, the
elements after the first are fewer than the tokens of the input, which bounds the repetition. -/
def sepBy (e : Peg τ α) (sep : Peg τ Unit) : Peg τ (List α) := fun input =>
  ((do
    let a ← e
    let as ← sepByTail e sep input.length
    pure (a :: as)) <|> pure []) input

/-- A public rule: it succeeds only where it reads its whole input. -/
def parse (e : Peg τ α) (input : List τ) : Option α :=
  match e input with
  | some (a, []) => some a
  | _ => none

/-! ## Running an expression -/

variable {e : Peg τ α} {input rest : List τ} {a : α}

theorem bind_apply (e : Peg τ α) (f : α → Peg τ β) (input : List τ) :
    (e >>= f) input = (e input).bind fun r => f r.1 r.2 := rfl

@[simp] theorem pure_apply (a : α) (input : List τ) : (pure a : Peg τ α) input = some (a, input) :=
  rfl

theorem map_apply (f : α → β) (e : Peg τ α) (input : List τ) :
    (f <$> e) input = (e input).map fun r => (f r.1, r.2) := by
  show StateT.map f e input = _
  unfold StateT.map
  cases e input <;> rfl

theorem orElse_apply (e e' : Peg τ α) (input : List τ) :
    (e <|> e') input = (e input).or (e' input) := by
  show (e input <|> e' input) = _
  cases e input <;> rfl

theorem bind_of_eq_some {f : α → Peg τ β} (h : e input = some (a, rest)) :
    (e >>= f) input = f a rest := by
  rw [bind_apply, h]
  rfl

theorem bind_of_eq_none {f : α → Peg τ β} (h : e input = none) : (e >>= f) input = none := by
  rw [bind_apply, h]
  rfl

theorem orElse_of_eq_some {e' : Peg τ α} {r : α × List τ} (h : e input = some r) :
    (e <|> e') input = some r := by
  rw [orElse_apply, h]
  rfl

theorem orElse_of_eq_none {e' : Peg τ α} (h : e input = none) : (e <|> e') input = e' input := by
  rw [orElse_apply, h]
  rfl

theorem guardMap_of_eq_some {f : α → Option β} (h : e input = some (a, rest)) :
    guardMap e f input = (f a).map (·, rest) := by
  rw [guardMap, h]
  rfl

theorem guardMap_of_eq_none {f : α → Option β} (h : e input = none) : guardMap e f input = none := by
  rw [guardMap, h]
  rfl

theorem parse_of_eq_some (h : e input = some (a, [])) : parse e input = some a := by
  rw [parse, h]

/-! ## What each primitive reads -/

section Lit

variable [DecidableEq τ]

theorem lit_append : ∀ (s rest : List τ), lit s (s ++ rest) = some ((), rest)
  | [], _ => rfl
  | c :: s, rest => by
    show (if c = c then lit s (s ++ rest) else none) = _
    rw [if_pos rfl, lit_append s rest]

theorem lit_eq_some_iff : ∀ {s input : List τ} {r : Unit × List τ},
    lit s input = some r ↔ input = s ++ r.2
  | [], input, r => by
    show some ((), input) = some r ↔ _
    simp [Prod.ext_iff, eq_comm]
  | _ :: _, [], _ => by simp [lit]
  | c :: s, c' :: input, r => by
    show (if c = c' then lit s input else none) = some r ↔ _
    by_cases hc : c = c'
    · subst hc
      rw [if_pos rfl, lit_eq_some_iff]
      simp
    · rw [if_neg hc]
      simp [Ne.symm hc]

theorem lit_eq_none_iff {s : List τ} : lit s input = none ↔ ¬s <+: input := by
  rw [Option.eq_none_iff_forall_ne_some]
  constructor
  · rintro h ⟨t, rfl⟩
    exact h ((), t) ((lit_eq_some_iff).mpr rfl)
  · intro h r hr
    exact h ⟨r.2, ((lit_eq_some_iff).mp hr).symm⟩

end Lit

theorem sat_cons {p : τ → Bool} {c : τ} : sat p (c :: input) = if p c then some (c, input) else none :=
  rfl

@[simp] theorem sat_nil {p : τ → Bool} : sat p [] = none := rfl

theorem span_append {p : τ → Bool} :
    ∀ {pre : List τ}, (∀ c ∈ pre, p c = true) → (∀ c ∈ rest.head?, p c = false) →
      span p (pre ++ rest) = some (pre, rest)
  | [], _, hrest => by
    cases rest with
    | nil => rfl
    | cons c rest =>
      have hc : p c = false := hrest c rfl
      simp [span, hc]
  | c :: pre, hpre, hrest => by
    have hc : p c = true := hpre c List.mem_cons_self
    have ih := span_append (fun c' hc' => hpre c' (List.mem_cons_of_mem _ hc')) hrest
    simp only [span, Option.some.injEq, Prod.mk.injEq] at ih
    simp [span, hc, ih]

theorem span1_append {p : τ → Bool} {pre : List τ} (hne : pre ≠ [])
    (hpre : ∀ c ∈ pre, p c = true) (hrest : ∀ c ∈ rest.head?, p c = false) :
    span1 p (pre ++ rest) = some (pre, rest) := by
  rw [span1, guardMap_of_eq_some (span_append hpre hrest)]
  simp [List.isEmpty_iff, hne]

theorem slice_of_eq_some {pre : List τ} (h : e (pre ++ rest) = some (a, rest)) :
    slice e (pre ++ rest) = some (pre, rest) := by
  simp [slice, h]

theorem sepByTail_of_sep_eq_none {sep : Peg τ Unit} (hsep : sep input = none) :
    ∀ fuel, sepByTail e sep fuel input = some ([], input)
  | 0 => rfl
  | _ + 1 => by
    rw [sepByTail, orElse_of_eq_none (bind_of_eq_none hsep)]
    rfl

/-- A prefix that differs from a list in its first token is not a prefix of it. -/
theorem not_prefix_of_head?_ne [DecidableEq τ] {s : List τ} (hne : s ≠ [])
    (h : s.head? ≠ input.head?) : ¬s <+: input := by
  intro hp
  obtain ⟨t, rfl⟩ := hp
  cases s with
  | nil => exact hne rfl
  | cons c s => exact h rfl

/-! ## What every parse gives -/

/-- Every value `e` gives has the property `P`. -/
def Yields (e : Peg τ α) (P : α → Prop) : Prop :=
  ∀ ⦃input a rest⦄, e input = some (a, rest) → P a

variable {P : α → Prop} {Q : β → Prop}

theorem Yields.of_forall (h : ∀ a, P a) : Yields e P := fun _ a _ _ => h a

theorem Yields.pure (h : P a) : Yields (pure a : Peg τ α) P := by
  intro input a' rest he
  cases he
  exact h

theorem Yields.bind {f : α → Peg τ β} (he : Yields e P) (hf : ∀ a, P a → Yields (f a) Q) :
    Yields (e >>= f) Q := by
  intro input b rest h
  rw [bind_apply] at h
  obtain ⟨⟨a, mid⟩, hea, hfa⟩ := Option.bind_eq_some_iff.mp h
  exact hf a (he hea) hfa

theorem Yields.orElse {e' : Peg τ α} (he : Yields e P) (he' : Yields e' P) :
    Yields (e <|> e') P := by
  intro input a rest h
  rw [orElse_apply] at h
  cases hl : e input with
  | none =>
    rw [hl] at h
    exact he' h
  | some r =>
    rw [hl] at h
    cases h
    exact he hl

theorem Yields.map {f : α → β} (he : Yields e P) (hf : ∀ a, P a → Q (f a)) :
    Yields (f <$> e) Q := by
  intro input b rest h
  rw [map_apply] at h
  obtain ⟨⟨a, mid⟩, hea, hb⟩ := Option.map_eq_some_iff.mp h
  cases hb
  exact hf a (he hea)

theorem Yields.guardMap {f : α → Option β} (he : Yields e P)
    (hf : ∀ a b, P a → f a = some b → Q b) : Yields (guardMap e f) Q := by
  intro input b rest h
  rw [Peg.guardMap] at h
  obtain ⟨⟨a, mid⟩, hea, hb⟩ := Option.bind_eq_some_iff.mp h
  obtain ⟨b', hfa, hb'⟩ := Option.map_eq_some_iff.mp hb
  cases hb'
  exact hf a b (he hea) hfa

theorem yields_span {p : τ → Bool} : Yields (span p) (∀ c ∈ ·, p c = true) := by
  intro input s rest h
  cases h
  exact fun c hc => List.mem_takeWhile_imp hc

theorem Yields.sepByTail {sep : Peg τ Unit} (he : Yields e P) :
    ∀ fuel, Yields (Peg.sepByTail e sep fuel) (∀ a ∈ ·, P a)
  | 0 => Yields.pure (List.forall_mem_nil P)
  | fuel + 1 => by
    refine Yields.orElse ?_ (Yields.pure (List.forall_mem_nil P))
    refine Yields.bind (Yields.of_forall fun _ => trivial) fun _ _ => ?_
    refine he.bind fun a ha => (Yields.sepByTail he fuel).bind fun as has => ?_
    exact Yields.pure (List.forall_mem_cons.mpr ⟨ha, has⟩)

theorem Yields.sepBy {sep : Peg τ Unit} (he : Yields e P) :
    Yields (Peg.sepBy e sep) (∀ a ∈ ·, P a) := by
  intro input as rest h
  -- the bound on the repetition is fixed by the input the whole expression reads
  have hrep : Yields ((do
      let a ← e
      let as ← Peg.sepByTail e sep input.length
      Pure.pure (a :: as)) <|> Pure.pure []) (∀ a ∈ ·, P a) := by
    refine Yields.orElse (Yields.bind he fun a ha => ?_) (Yields.pure (List.forall_mem_nil P))
    exact (he.sepByTail input.length).bind fun as has =>
      Yields.pure (List.forall_mem_cons.mpr ⟨ha, has⟩)
  exact hrep h

theorem Yields.parse (he : Yields e P) (h : Peg.parse e input = some a) : P a := by
  unfold Peg.parse at h
  split at h
  · next a' h' =>
    cases h
    exact he h'
  · cases h

end Peg
