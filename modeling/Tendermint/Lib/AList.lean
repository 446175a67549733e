import Mathlib

/-!
# The greatest and least keys of an association list, and inserts

A map whose entries are filtered by a predicate and then searched for the one with the greatest
(or the least) key. Keys are unique in an `AList`, so the entry found is the one whose key is the
greatest of the keys whose entries pass, and a lookup of that key gives it back.

A map that is written to in turn, seen through its lookup function: each insert updates the
function at its key, so after a list of writes a key has the value of its last write.
-/

namespace AList

variable {κ β : Type} [DecidableEq κ] [LinearOrder κ] {s : AList fun _ : κ => β}
  {p : (_ : κ) × β → Bool} {k : κ} {b : β}

/-- The entry found has the greatest key among the entries that pass `p`. -/
theorem argmax_filter_entries_eq_some :
    (s.entries.filter p).argmax Sigma.fst = some ⟨k, b⟩ ↔
      s.lookup k = some b ∧ p ⟨k, b⟩ ∧ ∀ k' b', s.lookup k' = some b' → p ⟨k', b'⟩ → k' ≤ k := by
  constructor
  · intro h
    have hmem := List.mem_filter.mp (List.argmax_mem h)
    refine ⟨mem_lookup_iff.mpr hmem.1, hmem.2, fun k' b' hk' hp => ?_⟩
    exact List.le_of_mem_argmax (List.mem_filter.mpr ⟨mem_lookup_iff.mp hk', hp⟩) h
  · rintro ⟨hk, hp, hmax⟩
    have hmem : (⟨k, b⟩ : (_ : κ) × β) ∈ s.entries.filter p :=
      List.mem_filter.mpr ⟨mem_lookup_iff.mp hk, hp⟩
    obtain ⟨⟨k', b'⟩, hm⟩ :=
      Option.ne_none_iff_exists'.mp (mt (List.argmax_eq_none (f := Sigma.fst)).mp
        (List.ne_nil_of_mem hmem))
    -- the entry found has a key at least `k` and, passing `p`, at most `k`
    have hmem' := List.mem_filter.mp (List.argmax_mem hm)
    have hle : k ≤ k' := List.le_of_mem_argmax hmem hm
    obtain rfl : k' = k := le_antisymm (hmax k' b' (mem_lookup_iff.mpr hmem'.1) hmem'.2) hle
    have hb : b' = b := Option.some.inj ((mem_lookup_iff.mpr hmem'.1).symm.trans hk)
    rw [hm, hb]

/-- No entry is found exactly when no entry passes `p`. -/
theorem argmax_filter_entries_eq_none :
    (s.entries.filter p).argmax Sigma.fst = none ↔ ∀ k b, s.lookup k = some b → p ⟨k, b⟩ = false := by
  rw [List.argmax_eq_none, List.filter_eq_nil_iff]
  constructor
  · intro h k b hk
    simpa using h _ (mem_lookup_iff.mp hk)
  · rintro h ⟨k, b⟩ hk
    simp [h k b (mem_lookup_iff.mpr hk)]

/-- The entry found with the least key is an entry that passes `p`. -/
theorem argmin_filter_entries_mem (h : (s.entries.filter p).argmin Sigma.fst = some ⟨k, b⟩) :
    s.lookup k = some b ∧ p ⟨k, b⟩ := by
  have hmem := List.mem_filter.mp (List.argmin_mem h)
  exact ⟨mem_lookup_iff.mpr hmem.1, hmem.2⟩

/-- The entry found has the least key among the entries that pass `p`. -/
theorem argmin_filter_entries_eq_some :
    (s.entries.filter p).argmin Sigma.fst = some ⟨k, b⟩ ↔
      s.lookup k = some b ∧ p ⟨k, b⟩ ∧ ∀ k' b', s.lookup k' = some b' → p ⟨k', b'⟩ → k ≤ k' := by
  constructor
  · intro h
    refine ⟨(argmin_filter_entries_mem h).1, (argmin_filter_entries_mem h).2, fun k' b' hk' hp => ?_⟩
    exact List.le_of_mem_argmin (List.mem_filter.mpr ⟨mem_lookup_iff.mp hk', hp⟩) h
  · rintro ⟨hk, hp, hmin⟩
    have hmem : (⟨k, b⟩ : (_ : κ) × β) ∈ s.entries.filter p :=
      List.mem_filter.mpr ⟨mem_lookup_iff.mp hk, hp⟩
    obtain ⟨⟨k', b'⟩, hm⟩ :=
      Option.ne_none_iff_exists'.mp (mt (List.argmin_eq_none (f := Sigma.fst)).mp
        (List.ne_nil_of_mem hmem))
    -- the entry found has a key at most `k` and, passing `p`, at least `k`
    have hmem' := List.mem_filter.mp (List.argmin_mem hm)
    have hle : k' ≤ k := List.le_of_mem_argmin hmem hm
    obtain rfl : k' = k := le_antisymm hle (hmin k' b' (mem_lookup_iff.mpr hmem'.1) hmem'.2)
    have hb : b' = b := Option.some.inj ((mem_lookup_iff.mpr hmem'.1).symm.trans hk)
    rw [hm, hb]

/-- No entry is found with the least key exactly when no entry passes `p`. -/
theorem argmin_filter_entries_eq_none :
    (s.entries.filter p).argmin Sigma.fst = none ↔ ∀ k b, s.lookup k = some b → p ⟨k, b⟩ = false := by
  rw [List.argmin_eq_none, List.filter_eq_nil_iff]
  constructor
  · intro h k b hk
    simpa using h _ (mem_lookup_iff.mp hk)
  · rintro h ⟨k, b⟩ hk
    simp [h k b (mem_lookup_iff.mpr hk)]

/-! ## Writes in turn -/

section Insert

variable {κ β : Type} [DecidableEq κ]

/-- An insert updates the lookup function at its key. -/
theorem lookup_insert_eq_update (s : AList fun _ : κ => β) (k : κ) (v : β) :
    (s.insert k v).lookup = Function.update s.lookup k (some v) := by
  funext k'
  by_cases h : k' = k
  · subst h
    rw [lookup_insert, Function.update_self]
  · rw [lookup_insert_ne h, Function.update_of_ne h]

/-- Inserts in turn update the lookup function in turn. -/
theorem lookup_foldl_insert (writes : List (κ × β)) (s : AList fun _ : κ => β) :
    (writes.foldl (fun s w => s.insert w.1 w.2) s).lookup =
      writes.foldl (fun (f : κ → Option β) w => Function.update f w.1 (some w.2)) s.lookup := by
  induction writes generalizing s with
  | nil => rfl
  | cons w writes ih => rw [List.foldl_cons, List.foldl_cons, ih, lookup_insert_eq_update]

/-- After writes in turn, a key has the value of its last write, or the value it had if none
writes it. The induction takes the writes from the last. -/
theorem foldl_update_apply (writes : List (κ × β)) (f : κ → Option β) (k : κ) :
    writes.foldl (fun (f : κ → Option β) w => Function.update f w.1 (some w.2)) f k =
      (writes.reverse.lookup k).or (f k) := by
  induction writes using List.reverseRecOn with
  | nil => rfl
  | append_singleton writes w ih =>
    rw [List.foldl_append, List.foldl_cons, List.foldl_nil, List.reverse_append,
      List.reverse_singleton, List.singleton_append, List.lookup_cons]
    by_cases h : k = w.1
    · rw [h, Function.update_self, beq_self_eq_true, Option.some_or]
    · rw [Function.update_of_ne h, ih, beq_false_of_ne h]

end Insert

end AList
