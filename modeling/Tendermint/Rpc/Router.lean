import Mathlib

/-!
# The subscription router

`client/transport/router.rs`: `SubscriptionRouter`, a map from each query to the subscriptions of
that query by id, each with the sending end of its channel. Publishing to a query sends to each of
its subscriptions; a send fails once the subscription (the receiving end) has been dropped, and
the router then stops tracking it. A query whose subscriptions have all gone stays in the map,
with no subscription.

The payloads (events and errors) are left out: a channel is only whether its receiving end is
still there, which is what decides the outcome of a send.

The router's maps are `BTreeMap`s; `subscription_query` returns the first query, in the order of
the keys, that has a subscription of the id. Every operation only adds the subscription it is
given or removes subscriptions (`hasSubscription_add`, `hasSubscription_of_publish` and the lemmas
beside them).
-/

namespace Tendermint

namespace Rpc

/-- `SubscriptionTx`: the sending end of a subscription's channel, which can send while the
subscription has not been dropped. -/
structure SubscriptionTx where
  connected : Bool
deriving DecidableEq, Repr

/-- `PublishResult`. -/
inductive PublishResult
  | success
  | noSubscribers
  | allDisconnected (query : String)
deriving DecidableEq, Repr

/-- `SubscriptionRouter`. -/
structure SubscriptionRouter where
  subscriptions : AList fun _ : String => AList fun _ : String => SubscriptionTx

namespace SubscriptionRouter

/-- `SubscriptionRouter::default`. -/
def default : SubscriptionRouter := ⟨∅⟩

/-- `SubscriptionRouter::subscription_query`: the first query that has a subscription of `id`. -/
def subscriptionQuery (self : SubscriptionRouter) (id : String) : Option String :=
  ((self.subscriptions.entries.filter fun e => (e.2.lookup id).isSome).argmin Sigma.fst).map
    Sigma.fst

/-- `SubscriptionRouter::publish`: a send to each subscription of the query; those whose send
fails are removed. -/
def publish (self : SubscriptionRouter) (query : String) : PublishResult × SubscriptionRouter :=
  match self.subscriptions.lookup query with
  | none => (.noSubscribers, self)
  | some subsForQuery =>
    let disconnected := (subsForQuery.entries.filter fun e => !e.2.connected).map Sigma.fst
    let subsForQuery := disconnected.foldl (fun subs id => subs.erase id) subsForQuery
    let self : SubscriptionRouter := ⟨self.subscriptions.insert query subsForQuery⟩
    if subsForQuery.entries.isEmpty then (.allDisconnected query, self) else (.success, self)

/-- `SubscriptionRouter::publish_error`: to the query of the subscription `id`. -/
def publishError (self : SubscriptionRouter) (id : String) : PublishResult × SubscriptionRouter :=
  match self.subscriptionQuery id with
  | some query => self.publish query
  | none => (.noSubscribers, self)

/-- `SubscriptionRouter::publish_event`: to the query of the event. -/
def publishEvent (self : SubscriptionRouter) (query : String) :
    PublishResult × SubscriptionRouter :=
  self.publish query

/-- `SubscriptionRouter::add`. -/
def add (self : SubscriptionRouter) (id query : String) (tx : SubscriptionTx) :
    SubscriptionRouter :=
  let subsForQuery := (self.subscriptions.lookup query).getD ∅
  ⟨self.subscriptions.insert query (subsForQuery.insert id tx)⟩

/-- `SubscriptionRouter::remove_by_query`: the number of subscriptions removed. -/
def removeByQuery (self : SubscriptionRouter) (query : String) : Nat × SubscriptionRouter :=
  (((self.subscriptions.lookup query).map fun subs => subs.entries.length).getD 0,
    ⟨self.subscriptions.erase query⟩)

/-- `SubscriptionRouter::num_subscriptions_for_query`. -/
def numSubscriptionsForQuery (self : SubscriptionRouter) (query : String) : Nat :=
  ((self.subscriptions.lookup query).map fun subs => subs.entries.length).getD 0

/-- The caller drops the subscription `id`: from then on a send to it fails. -/
def dropSubscription (self : SubscriptionRouter) (id : String) : SubscriptionRouter :=
  ⟨self.subscriptions.keys.foldl (fun subscriptions query =>
    match subscriptions.lookup query with
    | some subs =>
      if (subs.lookup id).isSome then subscriptions.insert query (subs.insert id ⟨false⟩)
      else subscriptions
    | none => subscriptions) self.subscriptions⟩

/-- The router holds a subscription `id` for `query`. -/
def hasSubscription (self : SubscriptionRouter) (query id : String) : Bool :=
  ((self.subscriptions.lookup query).map fun subs => (subs.lookup id).isSome).getD false

/-! ## What each operation does to the subscriptions held -/

variable {self : SubscriptionRouter} {query query' id id' : String} {tx : SubscriptionTx}

theorem hasSubscription_iff :
    self.hasSubscription query id = true ↔
      ∃ subs, self.subscriptions.lookup query = some subs ∧ (subs.lookup id).isSome := by
  unfold hasSubscription
  cases self.subscriptions.lookup query <;> simp

@[simp] theorem hasSubscription_default : default.hasSubscription query id = false := rfl

/-- The count that `remove_by_query` returns is the one `num_subscriptions_for_query` gives. -/
theorem removeByQuery_fst : (self.removeByQuery query).1 = self.numSubscriptionsForQuery query :=
  rfl

/-- `add` adds its subscription and keeps the others. -/
theorem hasSubscription_add :
    (self.add id query tx).hasSubscription query' id' = true ↔
      (query' = query ∧ id' = id) ∨ self.hasSubscription query' id' = true := by
  simp only [hasSubscription_iff, add]
  by_cases hq : query' = query
  · subst hq
    rw [AList.lookup_insert]
    by_cases hi : id' = id
    · subst hi
      simp [AList.lookup_insert]
    · -- the other ids of the query keep what they had
      simp only [Option.some.injEq, exists_eq_left', AList.lookup_insert_ne hi, hi, and_false,
        false_or]
      cases self.subscriptions.lookup query' <;> simp
  · rw [AList.lookup_insert_ne hq]
    simp [hq]

theorem hasSubscription_of_removeByQuery
    (h : (self.removeByQuery query).2.hasSubscription query' id = true) :
    self.hasSubscription query' id = true := by
  rw [hasSubscription_iff] at h ⊢
  obtain ⟨subs, hl, hs⟩ := h
  by_cases hq : query' = query
  · subst hq
    simp [removeByQuery, AList.lookup_erase] at hl
  · rw [removeByQuery, AList.lookup_erase_ne hq] at hl
    exact ⟨subs, hl, hs⟩

/-- Erasing ids from a map of subscriptions leaves some of those it had. -/
theorem lookup_of_foldl_erase {ids : List String} :
    ∀ {subs : AList fun _ : String => SubscriptionTx} {t : SubscriptionTx},
      (ids.foldl (fun subs id => subs.erase id) subs).lookup id = some t → subs.lookup id = some t := by
  induction ids with
  | nil => exact fun h => h
  | cons i ids ih =>
    intro subs t h
    have h' := ih h
    by_cases hi : id = i
    · subst hi
      rw [AList.lookup_erase] at h'
      cases h'
    · rwa [AList.lookup_erase_ne hi] at h'

/-- Publishing only removes subscriptions. -/
theorem hasSubscription_of_publish (h : (self.publish query).2.hasSubscription query' id = true) :
    self.hasSubscription query' id = true := by
  unfold publish at h
  cases hl : self.subscriptions.lookup query with
  | none => simpa [hl] using h
  | some subs =>
    simp only [hl] at h
    rw [hasSubscription_iff] at h ⊢
    -- both outcomes leave the same router
    have h' : ∃ subs', (self.subscriptions.insert query
        ((((subs.entries.filter fun e => !e.2.connected).map Sigma.fst).foldl
          (fun subs id => subs.erase id) subs))).lookup query' = some subs' ∧
        (subs'.lookup id).isSome := by
      split at h <;> exact h
    obtain ⟨subs', hl', hs'⟩ := h'
    by_cases hq : query' = query
    · subst hq
      rw [AList.lookup_insert] at hl'
      cases hl'
      obtain ⟨t, ht⟩ := Option.isSome_iff_exists.mp hs'
      exact ⟨subs, hl, by rw [lookup_of_foldl_erase ht]; rfl⟩
    · rw [AList.lookup_insert_ne hq] at hl'
      exact ⟨subs', hl', hs'⟩

theorem hasSubscription_of_publishError
    (h : (self.publishError id').2.hasSubscription query' id = true) :
    self.hasSubscription query' id = true := by
  unfold publishError at h
  split at h
  · exact hasSubscription_of_publish h
  · exact h

/-- Marking a subscription dropped in the map of one query keeps which ids have a subscription. -/
theorem hasSubscription_dropSubscription_step
    (subscriptions : AList fun _ : String => AList fun _ : String => SubscriptionTx)
    (q : String) :
    (⟨match subscriptions.lookup q with
      | some subs =>
        if (subs.lookup id').isSome then subscriptions.insert q (subs.insert id' ⟨false⟩)
        else subscriptions
      | none => subscriptions⟩ : SubscriptionRouter).hasSubscription query id =
      (⟨subscriptions⟩ : SubscriptionRouter).hasSubscription query id := by
  cases hl : subscriptions.lookup q with
  | none => rfl
  | some subs =>
    dsimp only
    split
    · next hs =>
      unfold hasSubscription
      by_cases hq : query = q
      · subst hq
        rw [AList.lookup_insert, hl]
        by_cases hi : id = id'
        · subst hi
          simp [AList.lookup_insert, hs]
        · simp [AList.lookup_insert_ne hi]
      · rw [AList.lookup_insert_ne hq]
    · rfl

/-- Dropping a subscription keeps it in the router, until a send to it fails. -/
theorem hasSubscription_dropSubscription :
    (self.dropSubscription id').hasSubscription query id = self.hasSubscription query id := by
  unfold dropSubscription
  -- each query the fold visits keeps which ids have a subscription
  generalize self.subscriptions.keys = qs
  obtain ⟨subscriptions⟩ := self
  induction qs generalizing subscriptions with
  | nil => rfl
  | cons q qs ih =>
    rw [List.foldl_cons, ih]
    exact hasSubscription_dropSubscription_step subscriptions q

end SubscriptionRouter

end Rpc

end Tendermint
