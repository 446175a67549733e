import Tendermint.Lib.AList
import Tendermint.Verifier.Types

/-!
# The light store

`store.rs` and `store/memory.rs`: the `LightStore` trait, whose provided methods combine the
queries of one status, and `MemoryStore`, the in-memory store of the light client's state.

The memory store is a `BTreeMap` from heights to entries. Its `insert` keys an entry by the height
of the entry's block, and nothing else adds an entry, so every entry is keyed by its own block's
height; that is a field of the structure below. The store is therefore a partial map from heights
to the one block and status stored there, `store.lookup`, and every lemma below is stated in that
view. The greatest (or least) key a query searches for is unique, so the order in which the map is
iterated, and which of several equal keys `max_by_key` would keep, do not matter.
-/

namespace Tendermint

namespace LightClient

open Verifier

/-! ## `std_ext` -/

namespace StdExt

/-- `std_ext::option::select`: the one value that is there, or `f` of both. -/
def select {α : Type} (a b : Option α) (f : α → α → α) : Option α :=
  match a, b with
  | none, b => b
  | a, none => a
  | some a, some b => some (f a b)

/-- `std_ext::cmp::max_by_key`: the first value only if its key is greater. -/
def maxByKey {α β : Type} [LT β] [DecidableLT β] (a b : α) (key : α → β) : α :=
  if key a > key b then a else b

/-- `std_ext::cmp::min_by_key`: the first value if its key is not greater. -/
def minByKey {α β : Type} [LE β] [DecidableLE β] (a b : α) (key : α → β) : α :=
  if key a ≤ key b then a else b

end StdExt

/-! ## The memory store -/

/-- `StoreEntry`. -/
structure StoreEntry where
  lightBlock : LightBlock
  status : Status
deriving DecidableEq

/-- `MemoryStore`, with the keying that `insert` keeps as a field. -/
structure MemoryStore where
  store : AList fun _ : Height => StoreEntry
  keyed : ∀ e ∈ store.entries, e.2.lightBlock.height = e.1

namespace MemoryStore

/-- An insert under the block's own height keeps every entry keyed by its block's height. -/
theorem keyed_insert (self : MemoryStore) (lightBlock : LightBlock) (status : Status) :
    ∀ e ∈ (self.store.insert lightBlock.height ⟨lightBlock, status⟩).entries,
      e.2.lightBlock.height = e.1 := by
  intro e he
  rw [AList.entries_insert] at he
  rcases List.mem_cons.mp he with rfl | he
  · rfl
  · exact self.keyed e ((List.kerase_sublist _ _).subset he)

/-- An erase keeps every entry keyed by its block's height. -/
theorem keyed_erase (self : MemoryStore) (height : Height) :
    ∀ e ∈ (self.store.erase height).entries, e.2.lightBlock.height = e.1 :=
  fun e he => self.keyed e ((List.kerase_sublist _ _).subset he)

/-- `MemoryStore::new`. -/
def new : MemoryStore := ⟨∅, fun _ he => nomatch he⟩

/-- `LightStore::get`: the block at a height, if it has the status. -/
def get (self : MemoryStore) (height : Height) (status : Status) : Option LightBlock :=
  ((self.store.lookup height).filter (·.status == status)).map (·.lightBlock)

/-- `LightStore::insert`, keyed by the block's own height. -/
def insert (self : MemoryStore) (lightBlock : LightBlock) (status : Status) : MemoryStore :=
  ⟨self.store.insert lightBlock.height ⟨lightBlock, status⟩, self.keyed_insert lightBlock status⟩

/-- `LightStore::remove`: the entry at a height goes only if it has the status. -/
def remove (self : MemoryStore) (height : Height) (status : Status) : MemoryStore :=
  match self.store.lookup height with
  | some e => if e.status == status then ⟨self.store.erase height, self.keyed_erase height⟩ else self
  | none => self

/-- `LightStore::update`. -/
def update (self : MemoryStore) (lightBlock : LightBlock) (status : Status) : MemoryStore :=
  self.insert lightBlock status

/-- `LightStore::highest`. -/
def highest (self : MemoryStore) (status : Status) : Option LightBlock :=
  ((self.store.entries.filter (·.2.status == status)).argmax (·.1)).map (·.2.lightBlock)

/-- `LightStore::highest_before`: the greatest height at most the given one. -/
def highestBefore (self : MemoryStore) (height : Height) (status : Status) : Option LightBlock :=
  (((self.store.entries.filter (·.2.status == status)).filter (·.1 ≤ height)).argmax (·.1)).map
    (·.2.lightBlock)

/-- `LightStore::lowest`. -/
def lowest (self : MemoryStore) (status : Status) : Option LightBlock :=
  ((self.store.entries.filter (·.2.status == status)).argmin (·.1)).map (·.2.lightBlock)

/-! ### The provided methods of `LightStore` -/

/-- `LightStore::get_non_failed`. -/
def getNonFailed (self : MemoryStore) (height : Height) : Option (LightBlock × Status) :=
  (((self.get height .trusted).map (·, .trusted)).or
    ((self.get height .verified).map (·, .verified))).or
    ((self.get height .unverified).map (·, .unverified))

/-- `LightStore::highest_trusted_or_verified`. -/
def highestTrustedOrVerified (self : MemoryStore) : Option LightBlock :=
  StdExt.select (self.highest .trusted) (self.highest .verified) fun t v =>
    StdExt.maxByKey t v LightBlock.height

/-- `LightStore::highest_trusted_or_verified_before`. -/
def highestTrustedOrVerifiedBefore (self : MemoryStore) (height : Height) : Option LightBlock :=
  StdExt.select (self.highestBefore height .trusted) (self.highestBefore height .verified)
    fun t v => StdExt.maxByKey t v LightBlock.height

/-- `LightStore::lowest_trusted_or_verified`. -/
def lowestTrustedOrVerified (self : MemoryStore) : Option LightBlock :=
  StdExt.select (self.lowest .trusted) (self.lowest .verified) fun t v =>
    StdExt.minByKey t v LightBlock.height

/-- `LightStore::get_trusted_or_verified`. -/
def getTrustedOrVerified (self : MemoryStore) (height : Height) : Option LightBlock :=
  (self.get height .trusted).or (self.get height .verified)

/-! ## The store as a partial map -/

variable {self : MemoryStore} {height h : Height} {b : LightBlock} {s : Status} {e : StoreEntry}

/-- The entry at a height holds a block of that height. -/
theorem lookup_height (he : self.store.lookup h = some e) : e.lightBlock.height = h :=
  self.keyed ⟨h, e⟩ (AList.mem_lookup_iff.mp he)

@[simp] theorem lookup_insert_self : (self.insert b s).store.lookup b.height = some ⟨b, s⟩ :=
  AList.lookup_insert _

/-- An insert leaves the entries of other heights. -/
theorem lookup_insert_of_ne (hne : h ≠ b.height) :
    (self.insert b s).store.lookup h = self.store.lookup h :=
  AList.lookup_insert_ne hne

/-- What the map holds after an insert: the block and its status at its height, the old entry
elsewhere. -/
theorem lookup_insert :
    (self.insert b s).store.lookup h = if h = b.height then some ⟨b, s⟩ else self.store.lookup h := by
  split
  · next hh => subst hh; exact lookup_insert_self
  · next hh => exact lookup_insert_of_ne hh

/-- The statuses at least `Verified` are `Trusted` and `Verified`. -/
theorem verified_le_iff {s : Status} : .verified ≤ s ↔ s = .trusted ∨ s = .verified := by
  cases s <;> decide

/-- What `get` finds at a height where an entry is stored. -/
theorem get_of_lookup {s' : Status} (hl : self.store.lookup h = some ⟨b, s'⟩) :
    self.get h s = if s' = s then some b else none := by
  unfold get
  rw [hl]
  by_cases hs : s' = s <;> simp [hs]

/-- A height with no entry gives no block. -/
theorem get_of_lookup_none (hl : self.store.lookup h = none) : self.get h s = none := by
  simp [get, hl]

/-- The store gives a block under a status exactly when it holds that entry. -/
theorem get_eq_some_iff : self.get h s = some b ↔ self.store.lookup h = some ⟨b, s⟩ := by
  cases hl : self.store.lookup h with
  | none => simp [get_of_lookup_none hl]
  | some e =>
    obtain ⟨b', s'⟩ := e
    rw [get_of_lookup hl]
    by_cases hs : s' = s
    · simp [hs, eq_comm]
    · simp [hs]

/-- No block that has not failed is at a height exactly when any entry there has failed. -/
theorem getNonFailed_eq_none_iff :
    self.getNonFailed h = none ↔ ∀ e, self.store.lookup h = some e → e.status = .failed := by
  unfold getNonFailed
  cases hl : self.store.lookup h with
  | none => simp [get_of_lookup_none hl]
  | some e =>
    obtain ⟨b', s'⟩ := e
    simp only [get_of_lookup hl]
    cases s' <;> simp

/-- The trusted or verified block at a height is the entry there of status at least `Verified`. -/
theorem getTrustedOrVerified_eq_some_iff :
    self.getTrustedOrVerified h = some b ↔
      ∃ s, .verified ≤ s ∧ self.store.lookup h = some ⟨b, s⟩ := by
  unfold getTrustedOrVerified
  cases hl : self.store.lookup h with
  | none => simp [get_of_lookup_none hl]
  | some e =>
    obtain ⟨b', s'⟩ := e
    simp only [get_of_lookup hl, verified_le_iff]
    cases s' <;> simp [eq_comm]

/-! ### The highest block of some statuses -/

/-- `b` is stored with a status that `S` accepts, at or below `height`, and no block stored with
such a status at or below `height` is higher. -/
structure IsHighestBefore (st : MemoryStore) (S : Status → Prop) (height : Height)
    (b : LightBlock) : Prop where
  mem : ∃ s, S s ∧ st.store.lookup b.height = some ⟨b, s⟩
  le : b.height ≤ height
  max : ∀ h e, st.store.lookup h = some e → S e.status → h ≤ height → h ≤ b.height

/-- Keys are unique, so there is one highest block. -/
theorem IsHighestBefore.unique {S : Status → Prop} {b' : LightBlock}
    (hb : self.IsHighestBefore S height b) (hb' : self.IsHighestBefore S height b') : b = b' := by
  obtain ⟨s, hs, hl⟩ := hb.mem
  obtain ⟨s', hs', hl'⟩ := hb'.mem
  have heq : b.height = b'.height :=
    le_antisymm (hb'.max _ _ hl hs hb.le) (hb.max _ _ hl' hs' hb'.le)
  rw [heq, hl'] at hl
  cases hl
  rfl

/-- The store's `highest_before` is the highest block of the status at most the height. -/
theorem highestBefore_eq_some_iff :
    self.highestBefore height s = some b ↔ self.IsHighestBefore (· = s) height b := by
  unfold highestBefore
  rw [List.filter_filter, Option.map_eq_some_iff]
  constructor
  · rintro ⟨⟨k, e⟩, hm, rfl⟩
    obtain ⟨hl, hp, hmax⟩ := AList.argmax_filter_entries_eq_some.mp hm
    simp only [Bool.and_eq_true, decide_eq_true_eq, beq_iff_eq] at hp
    obtain rfl := lookup_height hl
    refine ⟨⟨e.status, hp.2, hl⟩, hp.1, fun h e' he' hs' hle => hmax h e' he' ?_⟩
    simp [hle, hs']
  · rintro ⟨⟨s', rfl, hl⟩, hle, hmax⟩
    refine ⟨⟨b.height, ⟨b, s'⟩⟩, AList.argmax_filter_entries_eq_some.mpr ⟨hl, ?_, ?_⟩, rfl⟩
    · simp [hle]
    · intro k e' hk hp
      simp only [Bool.and_eq_true, decide_eq_true_eq, beq_iff_eq] at hp
      exact hmax k e' hk hp.2 hp.1

/-- No block of the status is at most the height exactly when `highest_before` finds none. -/
theorem highestBefore_eq_none_iff :
    self.highestBefore height s = none ↔
      ∀ h e, self.store.lookup h = some e → e.status = s → ¬ h ≤ height := by
  unfold highestBefore
  rw [List.filter_filter, Option.map_eq_none_iff, AList.argmax_filter_entries_eq_none]
  simp only [Bool.and_eq_false_iff, decide_eq_false_iff_not, beq_eq_false_iff_ne]
  exact forall₂_congr fun h e => imp_congr_right fun _ => by tauto

/-- The store has no highest block of a status exactly when it holds none of it. -/
theorem highest_eq_none_iff :
    self.highest s = none ↔ ∀ h e, self.store.lookup h = some e → e.status ≠ s := by
  unfold highest
  rw [Option.map_eq_none_iff, AList.argmax_filter_entries_eq_none]
  simp

/-- Of the highest trusted and the highest verified block below a height, `maxByKey` keeps the
higher, which is the highest block of either status. -/
theorem highestTrustedOrVerifiedBefore_of_eq_some
    (hb : self.highestTrustedOrVerifiedBefore height = some b) :
    self.IsHighestBefore (.verified ≤ ·) height b := by
  -- a block that is the highest of one of the two statuses and is at least as high as every
  -- block of the other is the highest of both
  have widen : ∀ s x, s = .trusted ∨ s = .verified → self.IsHighestBefore (· = s) height x →
      (∀ h e, self.store.lookup h = some e → e.status = .trusted → h ≤ height → h ≤ x.height) →
      (∀ h e, self.store.lookup h = some e → e.status = .verified → h ≤ height → h ≤ x.height) →
      self.IsHighestBefore (.verified ≤ ·) height x := by
    rintro s x hs ⟨⟨s', rfl, hl⟩, hle, -⟩ hT hV
    refine ⟨⟨s', verified_le_iff.mpr hs, hl⟩, hle, fun h e he hs he' => ?_⟩
    rcases verified_le_iff.mp hs with hs | hs
    · exact hT h e he hs he'
    · exact hV h e he hs he'
  unfold highestTrustedOrVerifiedBefore at hb
  cases hT : self.highestBefore height .trusted with
  | none =>
    have hTn := highestBefore_eq_none_iff.mp hT
    cases hV : self.highestBefore height .verified with
    | none => simp [hT, hV, StdExt.select] at hb
    | some v =>
      simp only [hT, hV, StdExt.select, Option.some.injEq] at hb
      subst hb
      have hV' := highestBefore_eq_some_iff.mp hV
      exact widen _ _ (.inr rfl) hV' (fun h e he hs hle => absurd hle (hTn h e he hs)) hV'.max
  | some t =>
    have hT' := highestBefore_eq_some_iff.mp hT
    cases hV : self.highestBefore height .verified with
    | none =>
      have hVn := highestBefore_eq_none_iff.mp hV
      simp only [hT, hV, StdExt.select, Option.some.injEq] at hb
      subst hb
      exact widen _ _ (.inl rfl) hT' hT'.max (fun h e he hs hle => absurd hle (hVn h e he hs))
    | some v =>
      have hV' := highestBefore_eq_some_iff.mp hV
      simp only [hT, hV, StdExt.select, StdExt.maxByKey, Option.some.injEq] at hb
      subst hb
      split
      · next hlt =>
        exact widen _ _ (.inl rfl) hT' hT'.max
          (fun h e he hs hle => le_of_lt (lt_of_le_of_lt (hV'.max h e he hs hle) hlt))
      · next hlt =>
        exact widen _ _ (.inr rfl) hV'
          (fun h e he hs hle => le_trans (hT'.max h e he hs hle) (not_lt.mp hlt)) hV'.max

/-- No trusted or verified block is at most the height exactly when
`highest_trusted_or_verified_before` finds none. -/
theorem highestTrustedOrVerifiedBefore_eq_none_iff :
    self.highestTrustedOrVerifiedBefore height = none ↔
      ∀ h e, self.store.lookup h = some e → .verified ≤ e.status → ¬ h ≤ height := by
  unfold highestTrustedOrVerifiedBefore
  constructor
  · intro hn h e he hs
    cases hT : self.highestBefore height .trusted <;>
      cases hV : self.highestBefore height .verified <;> simp [hT, hV, StdExt.select] at hn
    rcases verified_le_iff.mp hs with hs | hs
    · exact highestBefore_eq_none_iff.mp hT h e he hs
    · exact highestBefore_eq_none_iff.mp hV h e he hs
  · intro hn
    have hT : self.highestBefore height .trusted = none :=
      highestBefore_eq_none_iff.mpr fun h e he hs => hn h e he (verified_le_iff.mpr (.inl hs))
    have hV : self.highestBefore height .verified = none :=
      highestBefore_eq_none_iff.mpr fun h e he hs => hn h e he (verified_le_iff.mpr (.inr hs))
    rw [hT, hV]
    rfl

/-- `highest_trusted_or_verified_before` finds the highest trusted or verified block at or below
the height. -/
theorem highestTrustedOrVerifiedBefore_eq_some_iff :
    self.highestTrustedOrVerifiedBefore height = some b ↔
      self.IsHighestBefore (.verified ≤ ·) height b := by
  refine ⟨highestTrustedOrVerifiedBefore_of_eq_some, fun hb => ?_⟩
  cases ho : self.highestTrustedOrVerifiedBefore height with
  | none =>
    obtain ⟨s, hs, hl⟩ := hb.mem
    exact absurd hb.le (highestTrustedOrVerifiedBefore_eq_none_iff.mp ho _ _ hl hs)
  | some b' => rw [(highestTrustedOrVerifiedBefore_of_eq_some ho).unique hb]

/-- The highest block at most a height stays so in a store that agrees on the heights up to it. -/
theorem IsHighestBefore.of_lookup_eq {st' : MemoryStore} {S : Status → Prop}
    (hb : self.IsHighestBefore S height b)
    (h : ∀ k ≤ height, st'.store.lookup k = self.store.lookup k) :
    st'.IsHighestBefore S height b where
  mem := by
    obtain ⟨s, hs, hl⟩ := hb.mem
    exact ⟨s, hs, (h _ hb.le).trans hl⟩
  le := hb.le
  max k e hk hs hkle := hb.max k e ((h k hkle).symm.trans hk) hs hkle

/-- Which block is the highest trusted or verified one below a height depends only on the entries
at or below it. -/
theorem highestTrustedOrVerifiedBefore_congr {st' : MemoryStore}
    (h : ∀ k ≤ height, st'.store.lookup k = self.store.lookup k) :
    st'.highestTrustedOrVerifiedBefore height = self.highestTrustedOrVerifiedBefore height := by
  ext b
  simp only [highestTrustedOrVerifiedBefore_eq_some_iff]
  exact ⟨fun hb => hb.of_lookup_eq fun k hk => (h k hk).symm, fun hb => hb.of_lookup_eq h⟩

/-- An insert above the height leaves `highest_trusted_or_verified_before` of the height. -/
theorem highestTrustedOrVerifiedBefore_insert_of_lt {b' : LightBlock} (hlt : height < b'.height) :
    (self.insert b' s).highestTrustedOrVerifiedBefore height =
      self.highestTrustedOrVerifiedBefore height :=
  highestTrustedOrVerifiedBefore_congr fun _ hk => lookup_insert_of_ne (ne_of_lt (lt_of_le_of_lt hk hlt))

/-- A height without a block that has not failed has no trusted or verified one. -/
theorem getTrustedOrVerified_eq_none_of_getNonFailed (hn : self.getNonFailed h = none) :
    self.getTrustedOrVerified h = none := by
  rw [Option.eq_none_iff_forall_ne_some]
  intro b hb
  obtain ⟨s, hs, hl⟩ := getTrustedOrVerified_eq_some_iff.mp hb
  have hf : s = .failed := getNonFailed_eq_none_iff.mp hn _ hl
  subst hf
  exact absurd hs (by decide)

/-- `highest_trusted_or_verified` finds a block whenever one is trusted or verified. -/
theorem highestTrustedOrVerified_isSome (hl : self.store.lookup h = some e)
    (hs : .verified ≤ e.status) : self.highestTrustedOrVerified.isSome := by
  unfold highestTrustedOrVerified
  cases hT : self.highest .trusted <;> cases hV : self.highest .verified <;>
    simp only [StdExt.select, Option.isSome_some, Option.isSome_none]
  rcases verified_le_iff.mp hs with hs | hs
  · exact (highest_eq_none_iff.mp hT h e hl hs).elim
  · exact (highest_eq_none_iff.mp hV h e hl hs).elim

end MemoryStore

end LightClient

end Tendermint
