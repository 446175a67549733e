import Mathlib

/-!
# Rust slice operations

The slice operations that the light client's vote collection performs: `sort_by_key` (and its
unstable variant), `windows(2).find` over a sorted slice for two neighbours with equal keys, and
`binary_search_by_key`; `sort_by` with a comparator, with which the detector orders evidence; and
`chunks`, with which the secret connection frames what it writes. They are modelled on lists,
generically in the element type and in a linearly ordered key. A loop that walks a slice by index
is a recursion on the list of what is left, with the index of its head; `exists_getElem_cons` is its
step for statements about positions. `copy_from_slice` into a fixed-size buffer is a write of a list
over a part of another (`copyFromSlice_append`).

The sort is a stable merge sort. `sort_unstable_by_key` only promises a sorted permutation; the two
agree up to the order of elements with equal keys, which is all the difference there can be.
`binary_search_by` follows the standard library's loop over a half-open window `[left, right)`
that returns as soon as the probe compares equal; the proofs below only use the contract its
documentation gives (an `Ok` index holds a matching element, and an `Err` means that a sorted
slice has no match).
-/

namespace Slice

variable {α β : Type} [LinearOrder β]

/-- `slice.sort_by_key(key)`. -/
def sortByKey (key : α → β) (l : List α) : List α :=
  l.mergeSort (fun a b => decide (key a ≤ key b))

theorem sortByKey_perm (key : α → β) (l : List α) : (sortByKey key l).Perm l :=
  List.mergeSort_perm l _

theorem sortByKey_sorted (key : α → β) (l : List α) :
    (sortByKey key l).Pairwise (fun a b => key a ≤ key b) := by
  have h := @List.pairwise_mergeSort _ (fun a b => decide (key a ≤ key b))
    (fun a b c hab hbc => by simp only [decide_eq_true_eq] at *; exact hab.trans hbc)
    (fun a b => by simpa only [Bool.or_eq_true, decide_eq_true_eq] using le_total (key a) (key b))
    l
  exact h.imp (fun e => of_decide_eq_true e)

/-- A sorted slice is left as it is: the sort is stable. -/
theorem sortByKey_of_sorted {key : α → β} {l : List α} (h : l.Pairwise fun a b => key a ≤ key b) :
    sortByKey key l = l :=
  List.mergeSort_of_pairwise (h.imp fun hab => decide_eq_true hab)

/-- `slice.sort_by(compare)`: the stable sort that keeps `a` before `b` unless `compare(a, b)` is
`Greater`. -/
def sortBy (compare : α → α → Ordering) (l : List α) : List α :=
  l.mergeSort (fun a b => compare a b != .gt)

/-- A comparator that orders elements as a key does sorts them as the key does. -/
theorem sortBy_eq_sortByKey {compare : α → α → Ordering} {key : α → β}
    (h : ∀ a b, compare a b ≠ .gt ↔ key a ≤ key b) (l : List α) :
    sortBy compare l = sortByKey key l := by
  have hle : (fun a b => compare a b != .gt) = (fun a b => decide (key a ≤ key b)) := by
    funext a b
    rw [Bool.eq_iff_iff, bne_iff_ne, decide_eq_true_eq]
    exact h a b
  rw [sortBy, sortByKey, hle]

/-- A sort by a key that tells the elements apart does not depend on the order of its input. -/
theorem sortByKey_eq_of_perm {key : α → β} {l l' : List α} (hp : l.Perm l')
    (hkey : (l.map key).Nodup) : sortByKey key l = sortByKey key l' := by
  refine List.Perm.eq_of_pairwise ?_ (sortByKey_sorted key l) (sortByKey_sorted key l')
    ((sortByKey_perm key l).trans (hp.trans (sortByKey_perm key l').symm))
  -- two elements whose keys are each at most the other's have one key, so they are one element
  intro a b ha hb hab hba
  have ha' : a ∈ l := (sortByKey_perm key l).subset ha
  have hb' : b ∈ l := hp.symm.subset ((sortByKey_perm key l').subset hb)
  exact List.inj_on_of_nodup_map hkey ha' hb' (le_antisymm hab hba)

/-- `slice.windows(2).find(|pair| key(pair[0]) == key(pair[1]))`, returning `pair[0]`. -/
def findAdjacentDup (key : α → β) : List α → Option α
  | a :: b :: l => if key a = key b then some a else findAdjacentDup key (b :: l)
  | _ => none

/-- With no two equal neighbours, a slice sorted by key is strictly sorted. -/
theorem pairwise_lt_of_findAdjacentDup_eq_none {key : α → β} :
    ∀ {l : List α}, l.Pairwise (fun a b => key a ≤ key b) → findAdjacentDup key l = none →
      l.Pairwise (fun a b => key a < key b)
  | [], _, _ => .nil
  | [_], _, _ => List.pairwise_singleton _ _
  | a :: b :: l, hs, hd => by
    have hab : key a ≠ key b := by
      intro e
      simp [findAdjacentDup, e] at hd
    have hd' : findAdjacentDup key (b :: l) = none := by
      simpa [findAdjacentDup, hab] using hd
    obtain ⟨ha, hs'⟩ := List.pairwise_cons.mp hs
    have ih := pairwise_lt_of_findAdjacentDup_eq_none hs' hd'
    refine List.pairwise_cons.mpr ⟨fun c hc => ?_, ih⟩
    have hlt : key a < key b := lt_of_le_of_ne (ha b List.mem_cons_self) hab
    rcases List.mem_cons.mp hc with rfl | hc
    · exact hlt
    · exact hlt.trans (List.rel_of_pairwise_cons ih hc)

/-- The element `windows(2).find` reports shares its key with the next element of the slice. -/
theorem findAdjacentDup_eq_some {key : α → β} :
    ∀ {l : List α} {a : α}, findAdjacentDup key l = some a →
      ∃ l₁ b l₂, l = l₁ ++ a :: b :: l₂ ∧ key a = key b
  | [], _, h => by simp [findAdjacentDup] at h
  | [_], _, h => by simp [findAdjacentDup] at h
  | c :: d :: l, a, h => by
    unfold findAdjacentDup at h
    split at h
    · next e =>
      cases h
      exact ⟨[], d, l, rfl, e⟩
    · obtain ⟨l₁, b, l₂, hl, e⟩ := findAdjacentDup_eq_some h
      exact ⟨c :: l₁, b, l₂, by rw [hl]; rfl, e⟩

/-- `slice.binary_search_by(f)`: `Ok` with the index of an element that `f` maps to `Equal`, or
`Err` with the position where such an element would be inserted. -/
def binarySearchBy (l : List α) (f : α → Ordering) : Except Nat Nat :=
  loop 0 l.length (Nat.le_refl _)
where
  /-- The search window `[left, right)`, with `size = right - left`. -/
  loop (left right : Nat) (hr : right ≤ l.length) : Except Nat Nat :=
    if h : left < right then
      have hm : left + (right - left) / 2 < l.length := by omega
      match f l[left + (right - left) / 2] with
      | .lt => loop (left + (right - left) / 2 + 1) right hr
      | .gt => loop left (left + (right - left) / 2) (by omega)
      | .eq => .ok (left + (right - left) / 2)
    else .error left
  termination_by right - left

/-- `slice.binary_search_by_key(&b, key)`. -/
def binarySearchByKey (l : List α) (b : β) (key : α → β) : Except Nat Nat :=
  binarySearchBy l (fun x => compare (key x) b)

/-- An `Ok` index of the search holds an element that compares equal. -/
theorem binarySearchBy_loop_ok {l : List α} {f : α → Ordering} {left right hr i}
    (h : binarySearchBy.loop l f left right hr = .ok i) : ∃ hi : i < l.length, f l[i] = .eq := by
  induction left, right, hr using binarySearchBy.loop.induct (l := l) (f := f) with
  | case1 left right hr hlt hm heq ih =>
    rw [binarySearchBy.loop, dif_pos hlt] at h
    simp only [heq] at h
    exact ih h
  | case2 left right hr hlt hm heq ih =>
    rw [binarySearchBy.loop, dif_pos hlt] at h
    simp only [heq] at h
    exact ih h
  | case3 left right hr hlt hm heq =>
    rw [binarySearchBy.loop, dif_pos hlt] at h
    simp only [heq, Except.ok.injEq] at h
    subst h
    exact ⟨hm, heq⟩
  | case4 left right hr hlt =>
    rw [binarySearchBy.loop, dif_neg hlt] at h
    cases h

/-- The search reads the slice only through `f`. -/
theorem binarySearchBy_loop_congr {l₁ l₂ : List α} {f : α → Ordering} (h : l₁.map f = l₂.map f)
    {left right hr₁} (hr₂ : right ≤ l₂.length) :
    binarySearchBy.loop l₁ f left right hr₁ = binarySearchBy.loop l₂ f left right hr₂ := by
  have hf : ∀ i (h₁ : i < l₁.length) (h₂ : i < l₂.length), f l₁[i] = f l₂[i] := by
    intro i h₁ h₂
    have := congrArg (·[i]?) h
    simpa [h₁, h₂] using this
  have hlen : l₁.length = l₂.length := by simpa using congrArg List.length h
  induction left, right, hr₁ using binarySearchBy.loop.induct (l := l₁) (f := f) with
  | case1 left right hr hlt hm heq ih =>
    rw [binarySearchBy.loop.eq_def l₁, binarySearchBy.loop.eq_def l₂, dif_pos hlt, dif_pos hlt]
    have heq₂ := (hf _ hm (by omega)).symm.trans heq
    simp only [heq, heq₂]
    exact ih hr₂
  | case2 left right hr hlt hm heq ih =>
    rw [binarySearchBy.loop.eq_def l₁, binarySearchBy.loop.eq_def l₂, dif_pos hlt, dif_pos hlt]
    have heq₂ := (hf _ hm (by omega)).symm.trans heq
    simp only [heq, heq₂]
    exact ih (by omega)
  | case3 left right hr hlt hm heq =>
    rw [binarySearchBy.loop.eq_def l₁, binarySearchBy.loop.eq_def l₂, dif_pos hlt, dif_pos hlt]
    have heq₂ := (hf _ hm (by omega)).symm.trans heq
    simp only [heq, heq₂]
  | case4 left right hr hlt =>
    rw [binarySearchBy.loop.eq_def l₁, binarySearchBy.loop.eq_def l₂, dif_neg hlt, dif_neg hlt]

/-- Two slices with the same keys are searched alike. -/
theorem binarySearchByKey_congr {l₁ l₂ : List α} {key : α → β} (b : β)
    (h : l₁.map key = l₂.map key) : binarySearchByKey l₁ b key = binarySearchByKey l₂ b key := by
  have hf : l₁.map (fun x => compare (key x) b) = l₂.map (fun x => compare (key x) b) := by
    have := congrArg (List.map (compare · b)) h
    simp only [List.map_map] at this
    exact this
  have hlen : l₁.length = l₂.length := by simpa using congrArg List.length h
  have hright : ∀ r (hr : r ≤ l₂.length), r = l₂.length →
      binarySearchBy.loop l₂ (fun x => compare (key x) b) 0 r hr =
        binarySearchBy.loop l₂ (fun x => compare (key x) b) 0 l₂.length (Nat.le_refl _) := by
    rintro _ _ rfl
    rfl
  unfold binarySearchByKey binarySearchBy
  rw [binarySearchBy_loop_congr hf (by omega)]
  exact hright _ _ hlen

section Sorted

variable {key : α → β} {b : β}

/-- Monotonicity of a slice sorted by key, index by index. -/
theorem key_le_of_sorted {l : List α} (hs : l.Pairwise (fun x y => key x ≤ key y))
    {i j : Nat} (hi : i < l.length) (hj : j < l.length) (hij : i ≤ j) : key l[i] ≤ key l[j] := by
  rcases Nat.lt_or_eq_of_le hij with hij | rfl
  · exact List.pairwise_iff_getElem.mp hs i j hi hj hij
  · exact le_rfl

/-- On a sorted slice an `Err` of the search means that no element has the key. The window
invariant: everything left of `left` is below the key, everything from `right` on is above. -/
theorem binarySearchBy_loop_error {l : List α} (hs : l.Pairwise (fun x y => key x ≤ key y))
    {left right hr e}
    (hlow : ∀ j (hj : j < l.length), j < left → key l[j] < b)
    (hhigh : ∀ j (hj : j < l.length), right ≤ j → b < key l[j])
    (h : binarySearchBy.loop l (fun x => compare (key x) b) left right hr = .error e) :
    ∀ j (hj : j < l.length), key l[j] ≠ b := by
  induction left, right, hr using binarySearchBy.loop.induct (l := l)
    (f := fun x => compare (key x) b) with
  | case1 left right hr hlt hm heq ih =>
    rw [binarySearchBy.loop, dif_pos hlt] at h
    simp only [heq] at h
    have hmid : key l[left + (right - left) / 2] < b := compare_lt_iff_lt.mp heq
    refine ih (fun j hj hjl => ?_) hhigh h
    rcases Nat.lt_or_ge j left with hj' | hj'
    · exact hlow j hj hj'
    · exact lt_of_le_of_lt (key_le_of_sorted hs hj hm (by omega)) hmid
  | case2 left right hr hlt hm heq ih =>
    rw [binarySearchBy.loop, dif_pos hlt] at h
    simp only [heq] at h
    have hmid : b < key l[left + (right - left) / 2] := compare_gt_iff_gt.mp heq
    exact ih hlow (fun j hj hjr => lt_of_lt_of_le hmid (key_le_of_sorted hs hm hj hjr)) h
  | case3 left right hr hlt hm heq =>
    rw [binarySearchBy.loop, dif_pos hlt] at h
    simp only [heq] at h
    cases h
  | case4 left right hr hlt =>
    intro j hj
    rcases Nat.lt_or_ge j left with hj' | hj'
    · exact ne_of_lt (hlow j hj hj')
    · exact ne_of_gt (hhigh j hj (by omega))

/-- `binary_search_by_key` finds an element with the key exactly when a sorted slice has one. -/
theorem binarySearchByKey_eq_ok {l : List α} (hs : l.Pairwise (fun x y => key x ≤ key y)) :
    (∃ i, binarySearchByKey l b key = .ok i) ↔ ∃ x ∈ l, key x = b := by
  constructor
  · rintro ⟨i, h⟩
    obtain ⟨hi, e⟩ := binarySearchBy_loop_ok h
    exact ⟨l[i], List.getElem_mem hi, compare_eq_iff_eq.mp e⟩
  · rintro ⟨x, hx, e⟩
    cases hr : binarySearchByKey l b key with
    | ok i => exact ⟨i, rfl⟩
    | error n =>
      obtain ⟨j, hj, rfl⟩ := List.mem_iff_getElem.mp hx
      exact absurd e (binarySearchBy_loop_error hs (by omega) (by omega) hr j hj)

/-- The `Ok` index of `binary_search_by_key` holds an element with the key. -/
theorem binarySearchByKey_ok {l : List α} {i : Nat} (h : binarySearchByKey l b key = .ok i) :
    ∃ hi : i < l.length, key l[i] = b := by
  obtain ⟨hi, e⟩ := binarySearchBy_loop_ok h
  exact ⟨hi, compare_eq_iff_eq.mp e⟩

end Sorted

/-! ## Chunks -/

section Chunks

variable {γ : Type} {size : Nat}

/-- `slice.chunks(size)`: consecutive pieces of `size` elements, the last one possibly shorter.
The recursion runs on fuel, the length of the slice, which bounds the number of pieces. -/
def chunks (size : Nat) (l : List γ) : List (List γ) :=
  loop l.length l
where
  /-- At most `fuel` more pieces. -/
  loop : Nat → List γ → List (List γ)
    | 0, _ => []
    | _ + 1, [] => []
    | fuel + 1, a :: l => (a :: l).take size :: loop fuel ((a :: l).drop size)

/-- Enough fuel gives the same pieces. -/
theorem chunks.loop_congr (hsize : 0 < size) :
    ∀ {m n : Nat} {l : List γ}, l.length ≤ m → l.length ≤ n → loop size m l = loop size n l
  | 0, _, [], _, _ => by cases ‹Nat› <;> rfl
  | _ + 1, 0, [], _, _ => rfl
  | _ + 1, _ + 1, [], _, _ => rfl
  | m + 1, n + 1, a :: l, hm, hn => by
    simp only [loop, List.cons.injEq, true_and]
    have hd : ((a :: l).drop size).length ≤ l.length := by
      simp only [List.length_drop, List.length_cons]
      omega
    exact loop_congr hsize (by simp only [List.length_cons] at hm; omega)
      (by simp only [List.length_cons] at hn; omega)
  | 0, _, _ :: _, hm, _ => absurd hm (by simp)
  | _ + 1, 0, _ :: _, _, hn => absurd hn (by simp)

theorem chunks_nil : chunks size ([] : List γ) = [] := rfl

/-- A non-empty slice starts with a piece of its first `size` elements. -/
theorem chunks_of_ne_nil (hsize : 0 < size) {l : List γ} (hl : l ≠ []) :
    chunks size l = l.take size :: chunks size (l.drop size) := by
  obtain ⟨a, t, rfl⟩ := List.exists_cons_of_ne_nil hl
  simp only [chunks, List.length_cons, chunks.loop, List.cons.injEq, true_and]
  apply chunks.loop_congr hsize
  · simp only [List.length_drop, List.length_cons]
    omega
  · exact Nat.le_refl _

/-- The pieces put together are the slice, when the fuel suffices. -/
theorem chunks.flatten_loop (hsize : 0 < size) :
    ∀ {fuel : Nat} {l : List γ}, l.length ≤ fuel → (loop size fuel l).flatten = l
  | 0, [], _ => rfl
  | 0, _ :: _, h => absurd h (by simp)
  | _ + 1, [], _ => rfl
  | fuel + 1, a :: l, h => by
    simp only [loop, List.flatten_cons]
    rw [flatten_loop hsize (by simp only [List.length_drop, List.length_cons] at h ⊢; omega),
      List.take_append_drop]

/-- The pieces put together are the slice. -/
theorem flatten_chunks (hsize : 0 < size) (l : List γ) : (chunks size l).flatten = l :=
  chunks.flatten_loop hsize (Nat.le_refl _)

/-- Every piece holds at least one element and at most `size`. -/
theorem chunks.mem_loop (hsize : 0 < size) :
    ∀ {fuel : Nat} {l c : List γ}, c ∈ loop size fuel l → c ≠ [] ∧ c.length ≤ size
  | 0, _, _, h => by simp [loop] at h
  | _ + 1, [], _, h => by simp [loop] at h
  | fuel + 1, a :: l, c, h => by
    rw [loop, List.mem_cons] at h
    rcases h with rfl | h
    · exact ⟨by simp [List.take_eq_nil_iff, Nat.pos_iff_ne_zero.mp hsize],
        List.length_take_le _ _⟩
    · exact mem_loop hsize h

theorem mem_chunks (hsize : 0 < size) {l c : List γ} (h : c ∈ chunks size l) :
    c ≠ [] ∧ c.length ≤ size :=
  chunks.mem_loop hsize h

end Chunks

section FilterMap

variable {γ : Type}

/-- `iter.filter_map(f).collect()` gives back its input exactly when `f` keeps every element
as it is. -/
theorem filterMap_eq_self_iff {f : γ → Option γ} :
    ∀ {l : List γ}, l.filterMap f = l ↔ ∀ a ∈ l, f a = some a
  | [] => by simp
  | a :: l => by
    cases hf : f a with
    | none =>
      -- dropping `a` leaves a list shorter than `a :: l`
      have hlen := List.length_filterMap_le f l
      simp only [List.filterMap_cons_none hf, List.mem_cons, forall_eq_or_imp, hf,
        reduceCtorEq, false_and, iff_false]
      intro h
      have := congrArg List.length h
      simp only [List.length_cons] at this
      omega
    | some b =>
      simp only [List.filterMap_cons_some hf, List.cons.injEq, List.mem_cons, forall_eq_or_imp,
        hf, Option.some.injEq, filterMap_eq_self_iff]

end FilterMap

/-! ## Loops by index -/

section Positions

variable {γ : Type}

/-- A position of `a :: l`, counted from `i`, is `i` itself or a position of `l` counted from
`i + 1`: how a loop over `slice[i..]` hands the rest of the slice to its next iteration. -/
theorem exists_getElem_cons {a : γ} {l : List γ} {i : Nat} {P : Nat → γ → Prop} :
    (∃ j, ∃ hj : j < (a :: l).length, P (i + j) (a :: l)[j]) ↔
      P i a ∨ ∃ j, ∃ hj : j < l.length, P (i + 1 + j) l[j] := by
  constructor
  · rintro ⟨j, hj, hP⟩
    cases j with
    | zero => exact .inl hP
    | succ j =>
      have hpos : i + (j + 1) = i + 1 + j := by omega
      rw [hpos] at hP
      exact .inr ⟨j, Nat.lt_of_succ_lt_succ hj, hP⟩
  · rintro (hP | ⟨j, hj, hP⟩)
    · exact ⟨0, Nat.zero_lt_succ _, hP⟩
    · have hpos : i + 1 + j = i + (j + 1) := by omega
      rw [hpos] at hP
      exact ⟨j + 1, Nat.succ_lt_succ hj, hP⟩

end Positions

/-! ## Writes into a buffer -/

section CopyFromSlice

variable {γ : Type}

/-- `dst[start..start + src.len()].copy_from_slice(src)` where the types of both sides fix their
lengths to be equal, so that it cannot panic: `src` written over `dst` from position `start` on. -/
def copyFromSlice (dst : List γ) (start : Nat) (src : List γ) : List γ :=
  dst.take start ++ src ++ dst.drop (start + src.length)

/-- Writing over a part of the buffer of the same length replaces that part. -/
theorem copyFromSlice_append {pre mid post src : List γ} (h : src.length = mid.length) :
    copyFromSlice (pre ++ mid ++ post) pre.length src = pre ++ src ++ post := by
  simp [copyFromSlice, h]

end CopyFromSlice

end Slice
