import Tendermint.LightClient.Sled
import Tendermint.LightClient.Forward

/-!
# The persistent store against the memory store

The light client reads its store through four queries (`get_non_failed`,
`get_trusted_or_verified`, `highest_trusted_or_verified_before`, `lowest_trusted_or_verified`)
and writes it through `insert`, in `get_or_fetch_block`, and `update`, after each verdict of
`verify_forward` (and in `Instance::trust_block`). `Agree mem sled` relates a memory store and a
sled store that hold the same block at each height under each status but `Failed`, which no query
reads; the four queries then return the same from both (`Agree.getNonFailed` and the three lemmas
after it), since each query is the query of the blocks held (`IsLastAtMost`, `IsFirst`).

The writes are `StoreOp`s, run on any store through the `LightStore` trait. An `update` keeps the
agreement (`Agree.update`); so does an `insert` where the memory store holds no block of another
status but `Failed`, since there `MemoryStore::insert` and `SledStore::insert` differ only in a
failed block, which the memory store drops and the sled store keeps (`Agree.insert`). The sled
store is modelled without its CBOR encoding of blocks, so the agreement is of the heights and
statuses each store holds, not of the bytes `sled` returns.

`get_or_fetch_block` on its own (`Instance::get_or_fetch_block`, through which the detector fetches
from its witnesses) is not followed by an update. When the peer answers with a block whose height is
not the one asked for and holds a trusted block, the memory store replaces that block by the answer
as unverified, and the sled store keeps it: the two answer `get_trusted_or_verified` differently
there (`getOrFetchBlock_splits_stores`).
-/

namespace Tendermint

namespace LightClient

open Verifier

/-! ## The memory store's queries, in terms of the blocks it holds -/

namespace MemoryStore

variable {self : MemoryStore} {b : LightBlock} {h : Height} {s s' : Status}

/-- What `get` finds after an insert: the block at its height under its own status, nothing under
another. -/
theorem get_insert :
    (self.insert b s).get h s' =
      if h = b.height then (if s' = s then some b else none) else self.get h s' := by
  split
  · next hh =>
    subst hh
    rw [get_of_lookup lookup_insert_self]
    by_cases hs : s' = s
    · simp [hs]
    · simp [hs, Ne.symm hs]
  · next hh =>
    unfold get
    rw [lookup_insert_of_ne hh]

/-- The memory store's `highest_before` is the last block at most the height among those `get`
finds. -/
theorem highestBefore_eq_some_iff_get :
    self.highestBefore h s = some b ↔ IsLastAtMost LightBlock.height (self.get · s) h b := by
  rw [highestBefore_eq_some_iff]
  constructor
  · rintro ⟨⟨s', rfl, hl⟩, hle, hmax⟩
    refine ⟨get_eq_some_iff.mpr hl, hle, fun h' b' hb' hh' => ?_⟩
    exact hmax h' ⟨b', s'⟩ (get_eq_some_iff.mp hb') rfl hh'
  · rintro ⟨hget, hle, hmax⟩
    refine ⟨⟨s, rfl, get_eq_some_iff.mp hget⟩, hle, fun h' e he hs hh' => ?_⟩
    obtain ⟨b', s'⟩ := e
    dsimp only at hs
    subst hs
    exact hmax h' b' (get_eq_some_iff.mpr he) hh'

/-- The memory store's `lowest` is the first block among those `get` finds. -/
theorem lowest_eq_some_iff_get :
    self.lowest s = some b ↔ IsFirst LightBlock.height (self.get · s) b := by
  unfold lowest
  rw [Option.map_eq_some_iff]
  constructor
  · rintro ⟨⟨k, ⟨b', s'⟩⟩, hm, rfl⟩
    obtain ⟨hl, hs, hmin⟩ := AList.argmin_filter_entries_eq_some.mp hm
    have hk : b'.height = k := lookup_height hl
    simp only [beq_iff_eq] at hs
    subst hk hs
    refine ⟨get_eq_some_iff.mpr hl, fun h' b'' hb'' => ?_⟩
    exact hmin h' ⟨b'', s'⟩ (get_eq_some_iff.mp hb'') (by simp)
  · rintro ⟨hget, hmin⟩
    refine ⟨⟨b.height, ⟨b, s⟩⟩, AList.argmin_filter_entries_eq_some.mpr
      ⟨get_eq_some_iff.mp hget, by simp, fun k' e he hs => ?_⟩, rfl⟩
    obtain ⟨b', s'⟩ := e
    simp only [beq_iff_eq] at hs
    subst hs
    exact hmin k' b' (get_eq_some_iff.mpr he)

end MemoryStore

/-! ## Agreement -/

/-- The memory store and the sled store hold the same block at each height under each status but
`Failed`, and the sled store keys each block by its height. -/
structure Agree (mem : MemoryStore) (sled : SledStore) : Prop where
  keyed : sled.Keyed
  get : ∀ height status, status ≠ .failed → sled.get height status = mem.get height status

namespace Agree

variable {mem : MemoryStore} {sled : SledStore}

/-- Two new stores agree. -/
theorem new : Agree MemoryStore.new SledStore.new :=
  ⟨SledStore.keyed_new, fun _ status _ => by cases status <;> rfl⟩

/-- Agreeing stores answer `highest_before` alike for a status other than `Failed`. -/
theorem highestBefore (hA : Agree mem sled) {s : Status} (hs : s ≠ .failed) (h : Height) :
    sled.highestBefore h s = mem.highestBefore h s :=
  eq_of_eq_some_iff
    (fun _ => (SledStore.highestBefore_eq_some_iff hA.keyed).trans
      (isLastAtMost_congr fun k => hA.get k s hs))
    (fun _ => MemoryStore.highestBefore_eq_some_iff_get)

/-- Agreeing stores answer `lowest` alike for a status other than `Failed`. -/
theorem lowest (hA : Agree mem sled) {s : Status} (hs : s ≠ .failed) :
    sled.lowest s = mem.lowest s :=
  eq_of_eq_some_iff
    (fun _ => (SledStore.lowest_eq_some_iff hA.keyed).trans
      (isFirst_congr fun k => hA.get k s hs))
    (fun _ => MemoryStore.lowest_eq_some_iff_get)

/-! ### The client's queries return the same from both stores -/

/-- Agreeing stores answer `get_non_failed` alike. -/
theorem getNonFailed (hA : Agree mem sled) (h : Height) :
    LightStore.getNonFailed sled h = LightStore.getNonFailed mem h := by
  simp only [LightStore.getNonFailed, SledStore.lightStore_get, MemoryStore.lightStore_get,
    hA.get h .trusted (by decide), hA.get h .verified (by decide),
    hA.get h .unverified (by decide)]

/-- Agreeing stores answer `get_trusted_or_verified` alike. -/
theorem getTrustedOrVerified (hA : Agree mem sled) (h : Height) :
    LightStore.getTrustedOrVerified sled h = LightStore.getTrustedOrVerified mem h := by
  simp only [LightStore.getTrustedOrVerified, SledStore.lightStore_get,
    MemoryStore.lightStore_get, hA.get h .trusted (by decide), hA.get h .verified (by decide)]

/-- Agreeing stores answer `highest_trusted_or_verified_before` alike. -/
theorem highestTrustedOrVerifiedBefore (hA : Agree mem sled) (h : Height) :
    LightStore.highestTrustedOrVerifiedBefore sled h =
      LightStore.highestTrustedOrVerifiedBefore mem h := by
  simp only [LightStore.highestTrustedOrVerifiedBefore, SledStore.lightStore_highestBefore,
    MemoryStore.lightStore_highestBefore, hA.highestBefore (s := .trusted) (by decide),
    hA.highestBefore (s := .verified) (by decide)]

/-- Agreeing stores answer `lowest_trusted_or_verified` alike. -/
theorem lowestTrustedOrVerified (hA : Agree mem sled) :
    LightStore.lowestTrustedOrVerified sled = LightStore.lowestTrustedOrVerified mem := by
  simp only [LightStore.lowestTrustedOrVerified, SledStore.lightStore_lowest,
    MemoryStore.lightStore_lowest, hA.lowest (s := .trusted) (by decide),
    hA.lowest (s := .verified) (by decide)]

/-! ### Writes that keep the agreement -/

/-- An update of both stores keeps their agreement. -/
theorem update (hA : Agree mem sled) (b : LightBlock) (s : Status) :
    Agree (mem.update b s) (sled.update b s) := by
  refine ⟨hA.keyed.update, fun h s' hs' => ?_⟩
  rw [SledStore.get_update, MemoryStore.update, MemoryStore.get_insert]
  split
  · rfl
  · exact hA.get h s' hs'

/-- An insert where the memory store holds no block of another status but `Failed`. -/
theorem insert (hA : Agree mem sled) {b : LightBlock} {s : Status}
    (hfree : ∀ s', s' ≠ s → s' ≠ .failed → mem.get b.height s' = none) :
    Agree (mem.insert b s) (sled.insert b s) := by
  refine ⟨hA.keyed.insert, fun h s' hs' => ?_⟩
  rw [SledStore.get_insert, MemoryStore.get_insert]
  by_cases hh : h = b.height
  · subst hh
    by_cases hss : s' = s
    · simp [hss]
    · simp only [hss, false_and, if_false, if_true]
      rw [hA.get _ s' hs', hfree s' hss hs']
  · simp only [hh, and_false, if_false]
    exact hA.get h s' hs'

end Agree

/-! ## The client's writes -/

/-- The writes of the light client to its store. -/
inductive StoreOp
  /-- `get_or_fetch_block` at `height`, whose peer answers `answer` -/
  | getOrFetchBlock (height : Height) (answer : LightBlock)
  /-- `update`, as `Instance::trust_block` makes it -/
  | update (lightBlock : LightBlock) (status : Status)
  /-- an iteration of `verify_forward` that reached the verifier: `get_or_fetch_block`, then the
  update of the block it returned, with the status `newStatus` makes of the one it returned -/
  | verifyBlock (height : Height) (answer : LightBlock) (newStatus : Status → Status)

namespace StoreOp

variable {σ : Type} [LightStore σ]

/-- `LightClient::get_or_fetch_block` on any store, the peer answering `answer`: the block it
returns with its status, and the store after. -/
def fetch (self : σ) (height : Height) (answer : LightBlock) : (LightBlock × Status) × σ :=
  match LightStore.getNonFailed self height with
  | some block => (block, self)
  | none => ((answer, .unverified), LightStore.insert self answer .unverified)

/-- The store after a write. -/
def run : StoreOp → σ → σ
  | .getOrFetchBlock height answer, self => (fetch self height answer).2
  | .update lightBlock status, self => LightStore.update self lightBlock status
  | .verifyBlock height answer newStatus, self =>
    let ((lightBlock, status), self) := fetch self height answer
    LightStore.update self lightBlock (newStatus status)

end StoreOp

/-! ## A write of the light client's detector -/

section Runs

variable {self : LightClient} {n fuel : Nat} {target c c' h : Height} {st st' : State}

/-- The sled store that holds the chain's trusted root agrees with the memory store of the initial
state. -/
theorem agree_initial :
    Agree Chain.initial.lightStore (SledStore.new.insert Chain.root .trusted) :=
  Agree.new.insert fun _ _ _ => rfl

/-- `get_or_fetch_block` on its own, whose peer answers the request for a height that holds no
block but a failed one with a block at a height that holds a trusted block `t`: the memory store
replaces `t` by the answer, as unverified, and no longer answers it as trusted or verified, while
the sled store keeps `t` in its trusted tree and answers it. -/
theorem getOrFetchBlock_splits_stores {sled : SledStore} {answer t : LightBlock}
    (hA : Agree st.lightStore sled) (hfree : st.lightStore.getNonFailed h = none)
    (hio : self.io.fetchLightBlock n (.at h) = .ok answer) (hpeer : answer.provider = self.peer)
    (ht : st.lightStore.get answer.height .trusted = some t) :
    ∃ st', self.getOrFetchBlock n h st = some (.ok (answer, .unverified), st') ∧
      st'.lightStore.getTrustedOrVerified answer.height = none ∧
      LightStore.getTrustedOrVerified ((StoreOp.getOrFetchBlock h answer).run sled)
        answer.height = some t := by
  refine ⟨{ st with lightStore := st.lightStore.insert answer .unverified },
    getOrFetchBlock_eq_some.mpr (.inr ⟨hfree, .inr ⟨answer, hio, hpeer, rfl, rfl⟩⟩), ?_, ?_⟩
  · -- the memory store holds the answer there, as unverified
    simp [MemoryStore.getTrustedOrVerified, MemoryStore.get_insert]
  · -- the sled store adds the answer to its unverified tree only
    have hfree' : LightStore.getNonFailed sled h = none := by
      rw [hA.getNonFailed]
      exact hfree
    simp only [StoreOp.run, StoreOp.fetch, hfree', LightStore.getTrustedOrVerified,
      SledStore.lightStore_insert, SledStore.lightStore_get, SledStore.get_insert]
    rw [hA.get _ .trusted (by decide), ht]
    rfl

/-- The peer of the chain answers the request for height two with the trusted root. -/
theorem getOrFetchBlock_splits_stores_on_chain :
    ∃ st', (Chain.client fun _ => .ok Chain.root).getOrFetchBlock 0 ⟨2, by decide⟩ Chain.initial =
        some (.ok (Chain.root, .unverified), st') ∧
      st'.lightStore.getTrustedOrVerified Chain.root.height = none ∧
      LightStore.getTrustedOrVerified ((StoreOp.getOrFetchBlock ⟨2, by decide⟩ Chain.root).run
        (SledStore.new.insert Chain.root .trusted)) Chain.root.height = some Chain.root :=
  getOrFetchBlock_splits_stores agree_initial (by decide +kernel) rfl rfl (by decide +kernel)

end Runs

end LightClient

end Tendermint
