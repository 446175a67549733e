import Tendermint.Lib.Rust
import Tendermint.LightClient.LightStore

/-!
# The persistent light store

`store/sled.rs` and `store/sled/utils.rs`: `SledStore`, the light store kept in a `sled` database,
one tree per status, each a `HeightIndexedDb` whose keys are the heights' big-endian bytes
(`key_bytes`).

A `sled::Tree` is modelled as a map from byte-string keys (`IVec`), iterated in the order of the
keys, which `sled` compares as byte strings: `iter().next()` is the entry of the least key,
`iter().next_back()` the entry of the greatest, and `range(..=key).next_back()` the entry of the
greatest key at most `key`. Values are stored as they are; the CBOR encoding and the errors of
`sled` and of the encoding, which the store drops with `.ok()`, are left out.

Unlike `MemoryStore::insert`, `SledStore::insert` writes the tree of one status only, and leaves a
block of another status at the same height in its tree; `update` removes the height from the
other trees first.

Big-endian keys compare as their heights (`keyBytes_le_iff`), so each query of a tree is the
query of the heights it holds: the block at the greatest height at most the one asked for
(`highestBefore_eq_some_iff`), or at the least height (`lowest_eq_some_iff`). These are stated as
`IsLastAtMost` and `IsFirst` of the map `get` of one status, the specification that the memory
store meets too.
-/

namespace Tendermint

namespace LightClient

open Verifier

/-! ## The queries of a store, in terms of the blocks it holds -/

section Spec

variable {κ β : Type} [LinearOrder κ] (key : β → κ)

/-- `b` is the value of greatest key at most `k` of the partial map `get`, whose values carry
their keys. -/
structure IsLastAtMost (get : κ → Option β) (k : κ) (b : β) : Prop where
  get_eq : get (key b) = some b
  le : key b ≤ k
  max : ∀ k' b', get k' = some b' → k' ≤ k → k' ≤ key b

/-- `b` is the value of least key of the partial map `get`. -/
structure IsFirst (get : κ → Option β) (b : β) : Prop where
  get_eq : get (key b) = some b
  min : ∀ k' b', get k' = some b' → key b ≤ k'

variable {key}

/-- Two queries that each return the value a predicate picks are the same query. -/
theorem eq_of_eq_some_iff {P : β → Prop} {q₁ q₂ : Option β} (h₁ : ∀ b, q₁ = some b ↔ P b)
    (h₂ : ∀ b, q₂ = some b ↔ P b) : q₁ = q₂ :=
  Option.ext fun b => (h₁ b).trans (h₂ b).symm

/-- The predicate `IsLastAtMost` depends only on what `get` finds. -/
theorem isLastAtMost_congr {get₁ get₂ : κ → Option β} (hget : ∀ k, get₁ k = get₂ k) {k : κ}
    {b : β} : IsLastAtMost key get₁ k b ↔ IsLastAtMost key get₂ k b := by
  simp only [funext hget]

/-- The predicate `IsFirst` depends only on what `get` finds. -/
theorem isFirst_congr {get₁ get₂ : κ → Option β} (hget : ∀ k, get₁ k = get₂ k) {b : β} :
    IsFirst key get₁ b ↔ IsFirst key get₂ b := by
  simp only [funext hget]

end Spec

/-! ## `sled` -/

namespace Sled

/-- `sled::IVec`: a key, compared as a byte string. -/
structure IVec where
  bytes : List UInt8
deriving DecidableEq

/-- The bytes as numbers, compared lexicographically. -/
def IVec.lexKey (k : IVec) : List Nat := k.bytes.map UInt8.toNat

/-- Distinct byte strings have distinct keys of comparison. -/
theorem IVec.lexKey_injective : Function.Injective IVec.lexKey := by
  rintro ⟨a⟩ ⟨b⟩ h
  have hab : a = b := List.map_injective_iff.mpr (fun x y h => UInt8.toNat_inj.mp h) h
  rw [hab]

instance : LinearOrder IVec := LinearOrder.lift' IVec.lexKey IVec.lexKey_injective

/-- Byte strings compare lexicographically by their bytes. -/
theorem IVec.lt_iff {a b : IVec} : a < b ↔ List.Lex (· < ·) a.lexKey b.lexKey := Iff.rfl

/-- `sled::Tree` holding values of type `V`. -/
structure Tree (V : Type) where
  entries : AList fun _ : IVec => V

namespace Tree

variable {V : Type}

/-- An empty tree. -/
def empty : Tree V := ⟨∅⟩

/-- `Tree::get`. -/
def get (self : Tree V) (key : IVec) : Option V := self.entries.lookup key

/-- `Tree::insert`. -/
def insert (self : Tree V) (key : IVec) (value : V) : Tree V := ⟨self.entries.insert key value⟩

/-- `Tree::remove`. -/
def remove (self : Tree V) (key : IVec) : Tree V := ⟨self.entries.erase key⟩

/-- `tree.iter().next()`: the value of the least key. -/
def first (self : Tree V) : Option V :=
  ((self.entries.entries.filter fun _ => true).argmin Sigma.fst).map Sigma.snd

/-- `tree.iter().next_back()`: the value of the greatest key. -/
def last (self : Tree V) : Option V :=
  ((self.entries.entries.filter fun _ => true).argmax Sigma.fst).map Sigma.snd

/-- `tree.range(..=key).next_back()`: the value of the greatest key at most `key`. -/
def lastAtMost (self : Tree V) (key : IVec) : Option V :=
  ((self.entries.entries.filter fun e => e.1 ≤ key).argmax Sigma.fst).map Sigma.snd

/-- What a tree finds after an insert: the value at its key, the old value elsewhere. -/
theorem get_insert {t : Tree V} {k k' : IVec} {v : V} :
    (t.insert k v).get k' = if k' = k then some v else t.get k' := by
  split
  · next h => subst h; exact AList.lookup_insert _
  · next h => exact AList.lookup_insert_ne h

/-- What a tree finds after a removal: nothing at its key, the old value elsewhere. -/
theorem get_remove {t : Tree V} {k k' : IVec} :
    (t.remove k).get k' = if k' = k then none else t.get k' := by
  split
  · next h => subst h; exact AList.lookup_erase _ _
  · next h => exact AList.lookup_erase_ne h

end Tree

end Sled

open Sled

/-! ## `HeightIndexedDb` -/

/-- `key_bytes`: the big-endian bytes of the height. -/
def keyBytes (height : Height) : IVec := ⟨Rust.u64ToBeBytes height.value⟩

/-- Big-endian keys are ordered as their heights. -/
theorem keyBytes_lt_iff {a b : Height} : keyBytes a < keyBytes b ↔ a < b := by
  have hbound : ∀ h : Height, h.value < 256 ^ 8 := fun h => by
    have := h.lt
    unfold i64Bound at this
    omega
  rw [IVec.lt_iff, Height.lt_iff]
  exact Rust.lex_toBeBytes_iff (hbound a) (hbound b)

/-- Big-endian keys are ordered as their heights, also with equality. -/
theorem keyBytes_le_iff {a b : Height} : keyBytes a ≤ keyBytes b ↔ a ≤ b := by
  rw [← not_lt, ← not_lt, keyBytes_lt_iff]

/-- Distinct heights have distinct keys. -/
theorem keyBytes_injective : Function.Injective keyBytes := fun _ _ h =>
  le_antisymm (keyBytes_le_iff.mp h.le) (keyBytes_le_iff.mp h.ge)

/-- `HeightIndexedDb<V>`: a tree keyed by `key_bytes` of heights. -/
structure HeightIndexedDb (V : Type) where
  tree : Sled.Tree V

namespace HeightIndexedDb

variable {V : Type}

/-- `HeightIndexedDb::new` over an empty tree. -/
def new : HeightIndexedDb V := ⟨.empty⟩

/-- `HeightIndexedDb::get`. -/
def get (self : HeightIndexedDb V) (height : Height) : Option V := self.tree.get (keyBytes height)

/-- `HeightIndexedDb::insert`. -/
def insert (self : HeightIndexedDb V) (height : Height) (value : V) : HeightIndexedDb V :=
  ⟨self.tree.insert (keyBytes height) value⟩

/-- `HeightIndexedDb::remove`. -/
def remove (self : HeightIndexedDb V) (height : Height) : HeightIndexedDb V :=
  ⟨self.tree.remove (keyBytes height)⟩

theorem get_insert {db : HeightIndexedDb V} {h h' : Height} {v : V} :
    (db.insert h v).get h' = if h' = h then some v else db.get h' := by
  simp only [get, insert, Sled.Tree.get_insert, keyBytes_injective.eq_iff]

theorem get_remove {db : HeightIndexedDb V} {h h' : Height} :
    (db.remove h).get h' = if h' = h then none else db.get h' := by
  simp only [get, remove, Sled.Tree.get_remove, keyBytes_injective.eq_iff]

end HeightIndexedDb

/-- A tree of light blocks holds each block under the key of its own height. -/
def HeightIndexedDb.Keyed (db : HeightIndexedDb LightBlock) : Prop :=
  ∀ k b, db.tree.get k = some b → k = keyBytes b.height

/-! ## `SledStore` -/

/-- `SledStore`. -/
structure SledStore where
  unverifiedDb : HeightIndexedDb LightBlock
  verifiedDb : HeightIndexedDb LightBlock
  trustedDb : HeightIndexedDb LightBlock
  failedDb : HeightIndexedDb LightBlock

namespace SledStore

/-- `SledStore::new` over an empty database. -/
def new : SledStore := ⟨.new, .new, .new, .new⟩

/-- `SledStore::db`. -/
def db (self : SledStore) : Status → HeightIndexedDb LightBlock
  | .unverified => self.unverifiedDb
  | .verified => self.verifiedDb
  | .trusted => self.trustedDb
  | .failed => self.failedDb

/-- The store with the tree of `status` replaced, as the tree's own methods change it in place. -/
def setDb (self : SledStore) (status : Status) (db : HeightIndexedDb LightBlock) : SledStore :=
  match status with
  | .unverified => { self with unverifiedDb := db }
  | .verified => { self with verifiedDb := db }
  | .trusted => { self with trustedDb := db }
  | .failed => { self with failedDb := db }

/-- `LightStore::get`. -/
def get (self : SledStore) (height : Height) (status : Status) : Option LightBlock :=
  (self.db status).get height

/-- `LightStore::update`: the height leaves every other status's tree, and the block goes into the
tree of its status. -/
def update (self : SledStore) (lightBlock : LightBlock) (status : Status) : SledStore :=
  let height := lightBlock.height
  let self := Status.iter.foldl (fun self other =>
    if status ≠ other then self.setDb other ((self.db other).remove height) else self) self
  self.setDb status ((self.db status).insert height lightBlock)

/-- `LightStore::insert`: into the tree of its status only. -/
def insert (self : SledStore) (lightBlock : LightBlock) (status : Status) : SledStore :=
  self.setDb status ((self.db status).insert lightBlock.height lightBlock)

/-- `LightStore::remove`. -/
def remove (self : SledStore) (height : Height) (status : Status) : SledStore :=
  self.setDb status ((self.db status).remove height)

/-- `LightStore::highest`: `iter().next_back()`. -/
def highest (self : SledStore) (status : Status) : Option LightBlock :=
  (self.db status).tree.last

/-- `LightStore::highest_before`: `range(..=height).next_back()`. -/
def highestBefore (self : SledStore) (height : Height) (status : Status) : Option LightBlock :=
  (self.db status).tree.lastAtMost (keyBytes height)

/-- `LightStore::lowest`: `iter().next()`. -/
def lowest (self : SledStore) (status : Status) : Option LightBlock :=
  (self.db status).tree.first

/-- Every tree holds each block under the key of its own height. -/
def Keyed (self : SledStore) : Prop := ∀ status, (self.db status).Keyed

instance : LightStore SledStore where
  get := get
  update := update
  insert := insert
  highestBefore := highestBefore
  lowest := lowest

variable {self : SledStore} {b : LightBlock} {h : Height} {s s' : Status}

@[simp] theorem lightStore_get : LightStore.get self h s = self.get h s := rfl

@[simp] theorem lightStore_update : LightStore.update self b s = self.update b s := rfl

@[simp] theorem lightStore_insert : LightStore.insert self b s = self.insert b s := rfl

@[simp] theorem lightStore_highestBefore :
    LightStore.highestBefore self h s = self.highestBefore h s := rfl

@[simp] theorem lightStore_lowest : LightStore.lowest self s = self.lowest s := rfl

/-- Replacing one status's tree leaves the others. -/
theorem db_setDb {db : HeightIndexedDb LightBlock} :
    (self.setDb s db).db s' = if s' = s then db else self.db s' := by
  cases s <;> cases s' <;> rfl

/-- What `update` leaves in each tree. -/
theorem db_update :
    (self.update b s).db s' =
      if s' = s then (self.db s).insert b.height b else (self.db s').remove b.height := by
  cases s <;> cases s' <;> rfl

theorem get_insert :
    (self.insert b s).get h s' = if s' = s ∧ h = b.height then some b else self.get h s' := by
  unfold insert get
  rw [db_setDb]
  by_cases hs : s' = s
  · subst hs
    simp [HeightIndexedDb.get_insert]
  · simp [hs]

/-- What `get` finds after an update: the block at its height under its status only. -/
theorem get_update :
    (self.update b s).get h s' =
      if h = b.height then (if s' = s then some b else none) else self.get h s' := by
  unfold get
  rw [db_update]
  by_cases hs : s' = s
  · subst hs
    by_cases hh : h = b.height <;> simp [hh, HeightIndexedDb.get_insert]
  · by_cases hh : h = b.height <;> simp [hs, hh, HeightIndexedDb.get_remove]

/-- A new store holds nothing, so each block is under its own height. -/
theorem keyed_new : new.Keyed := by
  intro status k b hk
  cases status <;> cases hk

/-- An insert keeps every block under its own height. -/
theorem Keyed.insert (hk : self.Keyed) : (self.insert b s).Keyed := by
  intro status k b' hb'
  unfold SledStore.insert at hb'
  rw [db_setDb] at hb'
  by_cases hs : status = s
  · subst hs
    simp only [if_true, HeightIndexedDb.insert, Sled.Tree.get_insert] at hb'
    split at hb'
    · next he => cases hb'; exact he
    · exact hk status k b' hb'
  · simp only [hs, if_false] at hb'
    exact hk status k b' hb'

/-- An update keeps every block under its own height. -/
theorem Keyed.update (hk : self.Keyed) : (self.update b s).Keyed := by
  intro status k b' hb'
  rw [db_update] at hb'
  split at hb'
  · next hs =>
    subst hs
    simp only [HeightIndexedDb.insert, Sled.Tree.get_insert] at hb'
    split at hb'
    · next he => cases hb'; exact he
    · exact hk _ k b' hb'
  · simp only [HeightIndexedDb.remove, Sled.Tree.get_remove] at hb'
    split at hb'
    · cases hb'
    · exact hk status k b' hb'

/-! ### The queries of one tree -/

/-- Under the keying, a block in a tree under some key is the block at its own height. -/
theorem get_of_tree_get (hk : self.Keyed) {k : IVec} (hb : (self.db s).tree.get k = some b) :
    k = keyBytes b.height ∧ self.get b.height s = some b := by
  have he := hk s k b hb
  subst he
  exact ⟨rfl, hb⟩

/-- `range(..=height).next_back()` is the block at the greatest height at most `height`. -/
theorem highestBefore_eq_some_iff (hk : self.Keyed) :
    self.highestBefore h s = some b ↔ IsLastAtMost LightBlock.height (self.get · s) h b := by
  unfold highestBefore Sled.Tree.lastAtMost
  rw [Option.map_eq_some_iff]
  constructor
  · rintro ⟨⟨k, b'⟩, hm, rfl⟩
    obtain ⟨hl, hle, hmax⟩ := AList.argmax_filter_entries_eq_some.mp hm
    obtain ⟨rfl, hget⟩ := get_of_tree_get hk hl
    refine ⟨hget, keyBytes_le_iff.mp (of_decide_eq_true hle), fun h' b'' hb'' hh' => ?_⟩
    exact keyBytes_le_iff.mp
      (hmax _ _ hb'' (decide_eq_true (keyBytes_le_iff.mpr hh')))
  · intro hb
    refine ⟨⟨keyBytes b.height, b⟩, AList.argmax_filter_entries_eq_some.mpr
      ⟨hb.get_eq, decide_eq_true (keyBytes_le_iff.mpr hb.le), fun k' b' hk' hle => ?_⟩, rfl⟩
    obtain ⟨rfl, hget⟩ := get_of_tree_get hk hk'
    exact keyBytes_le_iff.mpr (hb.max _ _ hget (keyBytes_le_iff.mp (of_decide_eq_true hle)))

/-- `iter().next()` is the block at the least height. -/
theorem lowest_eq_some_iff (hk : self.Keyed) :
    self.lowest s = some b ↔ IsFirst LightBlock.height (self.get · s) b := by
  unfold lowest Sled.Tree.first
  rw [Option.map_eq_some_iff]
  constructor
  · rintro ⟨⟨k, b'⟩, hm, rfl⟩
    obtain ⟨hl, -, hmin⟩ := AList.argmin_filter_entries_eq_some.mp hm
    obtain ⟨rfl, hget⟩ := get_of_tree_get hk hl
    exact ⟨hget, fun h' b'' hb'' => keyBytes_le_iff.mp (hmin _ _ hb'' rfl)⟩
  · intro hb
    refine ⟨⟨keyBytes b.height, b⟩, AList.argmin_filter_entries_eq_some.mpr
      ⟨hb.get_eq, rfl, fun k' b' hk' _ => ?_⟩, rfl⟩
    obtain ⟨rfl, hget⟩ := get_of_tree_get hk hk'
    exact keyBytes_le_iff.mpr (hb.min _ _ hget)

end SledStore

end LightClient

end Tendermint
