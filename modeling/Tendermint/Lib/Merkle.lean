import Mathlib

/-!
# The Merkle tree hash of RFC 6962

Section 2.1 of RFC 6962 defines the tree hash of a list of leaves from three hashes: one of the
empty list, one of a leaf, and one of the hashes of two subtrees. A list of `n ≥ 2` leaves is split
at `k`, the largest power of two strictly below `n`; its hash is the node hash of the hash of the
first `k` leaves and of the hash of the rest.

`TreeHash` is that definition as a relation, over any leaf and digest types and any three hashes.
The split is determined by the length (`IsSplit.unique`), so the relation is a function
(`TreeHash.unique`, `TreeHash.iff_eq`): a recursion that satisfies its three equations computes it.
`isSplit_two_pow_log2` gives the split as `2 ^ log₂ (n - 1)`.
-/

namespace Merkle

/-- `k` is the largest power of two strictly below `n`. -/
def IsSplit (n k : ℕ) : Prop := IsGreatest {p | (∃ i, p = 2 ^ i) ∧ p < n} k

theorem IsSplit.unique {n k k' : ℕ} (h : IsSplit n k) (h' : IsSplit n k') : k = k' :=
  IsGreatest.unique h h'

/-- For `n ≥ 2` the split is `2 ^ log₂ (n - 1)`: it is at most `n - 1`, and a power of two below
`n` is at most `n - 1`, so its exponent is at most `log₂ (n - 1)`. -/
theorem isSplit_two_pow_log2 {n : ℕ} (hn : 2 ≤ n) : IsSplit n (2 ^ Nat.log2 (n - 1)) := by
  have hne : n - 1 ≠ 0 := by omega
  refine ⟨⟨⟨_, rfl⟩, ?_⟩, ?_⟩
  · have hle := Nat.log2_self_le hne
    omega
  · rintro p ⟨⟨i, rfl⟩, hi⟩
    apply Nat.pow_le_pow_right (by decide)
    exact (Nat.le_log2 hne).mpr (by omega)

section TreeHash

variable {α δ : Type*} {empty : δ} {leaf : α → δ} {node : δ → δ → δ}

/-- `TreeHash empty leaf node xs d`: `d` is the tree hash of the leaves `xs`, with
`MTH({}) = empty`, `MTH({x}) = leaf x`, and, for `n ≥ 2` leaves and `k` the largest power of two
below `n`, `MTH(xs) = node MTH(xs[0:k]) MTH(xs[k:n])`. -/
inductive TreeHash (empty : δ) (leaf : α → δ) (node : δ → δ → δ) : List α → δ → Prop
  | nil : TreeHash empty leaf node [] empty
  | singleton (x : α) : TreeHash empty leaf node [x] (leaf x)
  | split {xs : List α} {k : ℕ} {left right : δ} (hlen : 2 ≤ xs.length)
      (hk : IsSplit xs.length k) (hleft : TreeHash empty leaf node (xs.take k) left)
      (hright : TreeHash empty leaf node (xs.drop k) right) :
      TreeHash empty leaf node xs (node left right)

/-- The tree hash is a function of the leaves: the three cases are told apart by the length, and
two splits of one list are at the same point. -/
theorem TreeHash.unique {xs : List α} {d d' : δ} (h : TreeHash empty leaf node xs d)
    (h' : TreeHash empty leaf node xs d') : d = d' := by
  induction h generalizing d' with
  | nil =>
    cases h' with
    | nil => rfl
    | split hlen => simp at hlen
  | singleton x =>
    cases h' with
    | singleton => rfl
    | split hlen => simp at hlen
  | split hlen hk _ _ ihl ihr =>
    cases h' with
    | nil => simp at hlen
    | singleton => simp at hlen
    | split _ hk' hl' hr' =>
      obtain rfl := hk.unique hk'
      rw [ihl hl', ihr hr']

/-- Once a value is known to be the tree hash, the tree hash is exactly that value. -/
theorem TreeHash.iff_eq {xs : List α} {d : δ} (h : TreeHash empty leaf node xs d) (d' : δ) :
    TreeHash empty leaf node xs d' ↔ d' = d :=
  ⟨fun h' => h'.unique h, fun e => e ▸ h⟩

end TreeHash

end Merkle
