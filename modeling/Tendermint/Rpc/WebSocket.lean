import Tendermint.Lib.Stream
import Tendermint.Rpc.Router

/-!
# The WebSocket client driver

`client/transport/websocket.rs`: `WebSocketClientDriver`, which receives the client's commands
through a channel, writes their requests to the connection and matches the server's responses to
the commands that wait for them. Its state is the subscription router and the pending commands,
by the id of the response that answers them.

A step of the driver is one turn of its `run` loop: a command from the client, a text message from
the server, or the client dropping a subscription, after which sends to it fail. What a step does
is a list of outputs: the requests it writes and the `Ok`s it sends on the response channels of
commands. The JSON-RPC id that `Wrapper::new` draws for an unsubscribe request is an input of the
step. Failed writes, pings and pongs, and `Terminate` are left out.

Every subscription the router holds comes from a `Subscribe` command of the run (`Provenance`,
kept by every step), and a `Subscribe` is acknowledged with `Ok` only together with its entry in
the router (`hasSubscription_of_ok_subscribe_mem`). The router need not agree with the server,
though: `respond_to_pending_command` does not look at whether the response was an error, and an
`Unsubscribe` of a query whose subscription is still waiting for the server is acknowledged at
once without touching the pending command.
-/

namespace Tendermint

namespace Rpc

/-- `DriverCommand`, without `Terminate`. The response channel of a command is left out: the
driver's `Ok` on it is an output (`Output.ok`). -/
inductive DriverCommand
  | subscribe (id query : String) (subscriptionTx : SubscriptionTx)
  | unsubscribe (query : String)
  | simpleRequest (id : String)
deriving DecidableEq, Repr

/-- The JSON-RPC requests the driver writes to the connection. -/
inductive Request
  | subscribe (id query : String)
  | unsubscribe (id query : String)
  | simple (id : String)
deriving DecidableEq, Repr

/-- What a step of the driver does: write a request, or send `Ok` on the response channel of a
command. -/
inductive Output
  | request (request : Request)
  | ok (cmd : DriverCommand)
deriving DecidableEq, Repr

/-- A text message from the server as `handle_text_msg` reads it: an event of a query, a JSON-RPC
response with its id, which is an error or not, or neither. -/
inductive Message
  | event (query : String)
  | response (id : String) (error : Bool)
  | other
deriving DecidableEq, Repr

/-- What the driver's loop receives; `reqId` is the id a new request of the step would get. -/
inductive Input
  | command (cmd : DriverCommand) (reqId : String)
  | message (msg : Message) (reqId : String)
  | drop (id : String)
deriving DecidableEq, Repr

/-- `WebSocketClientDriver`, without its connection and command channel. -/
structure WebSocketClientDriver where
  router : SubscriptionRouter
  pendingCommands : AList fun _ : String => DriverCommand

namespace WebSocketClientDriver

/-- `WebSocketClientDriver::new`. -/
def new : WebSocketClientDriver := ⟨.default, ∅⟩

/-- `WebSocketClientDriver::simple_request`. -/
def simpleRequest (self : WebSocketClientDriver) (id : String) :
    List Output × WebSocketClientDriver :=
  ([.request (.simple id)],
    { self with pendingCommands := self.pendingCommands.insert id (.simpleRequest id) })

/-- `WebSocketClientDriver::subscribe`: a query that already has a subscription only gains one in
the router; otherwise the driver sends a subscribe request, and the command waits for its
response. -/
def subscribe (self : WebSocketClientDriver) (id query : String)
    (subscriptionTx : SubscriptionTx) : List Output × WebSocketClientDriver :=
  if self.router.numSubscriptionsForQuery query > 0 then
    ([.ok (.subscribe id query subscriptionTx)],
      { self with router := self.router.add id query subscriptionTx })
  else
    ([.request (.subscribe id query)],
      { self with
        pendingCommands := self.pendingCommands.insert id (.subscribe id query subscriptionTx) })

/-- `WebSocketClientDriver::unsubscribe`: the router forgets the query's subscriptions at once, and
the command is acknowledged at once when it had none. -/
def unsubscribe (self : WebSocketClientDriver) (query reqId : String) :
    List Output × WebSocketClientDriver :=
  let removed := self.router.removeByQuery query
  let self := { self with router := removed.2 }
  if removed.1 = 0 then ([.ok (.unsubscribe query)], self)
  else
    ([.request (.unsubscribe reqId query)],
      { self with pendingCommands := self.pendingCommands.insert reqId (.unsubscribe query) })

/-- What `publish_event` and `publish_error` do with what the router's publication returns: a
fire-and-forget unsubscribe request once every subscription of the query has gone. -/
def afterPublish (self : WebSocketClientDriver) (reqId : String)
    (published : PublishResult × SubscriptionRouter) : List Output × WebSocketClientDriver :=
  match published.1 with
  | .allDisconnected query =>
    ([.request (.unsubscribe reqId query)], { self with router := published.2 })
  | _ => ([], { self with router := published.2 })

/-- `WebSocketClientDriver::publish_event`. -/
def publishEvent (self : WebSocketClientDriver) (query reqId : String) :
    List Output × WebSocketClientDriver :=
  self.afterPublish reqId (self.router.publishEvent query)

/-- `WebSocketClientDriver::publish_error`. -/
def publishError (self : WebSocketClientDriver) (id reqId : String) :
    List Output × WebSocketClientDriver :=
  self.afterPublish reqId (self.router.publishError id)

/-- `WebSocketClientDriver::respond_to_pending_command`: `Ok`, whatever the response was. -/
def respondToPendingCommand (self : WebSocketClientDriver) :
    DriverCommand → List Output × WebSocketClientDriver
  | .subscribe id query subscriptionTx =>
    ([.ok (.subscribe id query subscriptionTx)],
      { self with router := self.router.add id query subscriptionTx })
  | .unsubscribe query => ([.ok (.unsubscribe query)], self)
  | .simpleRequest id => ([.ok (.simpleRequest id)], self)

/-- `WebSocketClientDriver::handle_text_msg`: an error response is published to the subscription of
its id, and then every response answers the command that waits for it. -/
def handleTextMsg (self : WebSocketClientDriver) (reqId : String) :
    Message → List Output × WebSocketClientDriver
  | .event query => self.publishEvent query reqId
  | .response id error =>
    let published := if error then self.publishError id reqId else ([], self)
    let self := published.2
    match self.pendingCommands.lookup id with
    | some pendingCmd =>
      let responded := { self with pendingCommands := self.pendingCommands.erase id }
        |>.respondToPendingCommand pendingCmd
      (published.1 ++ responded.1, responded.2)
    | none => published
  | .other => ([], self)

/-- The client drops the subscription `id`: later sends to it fail, from the router and from a
subscribe command that still waits for its response. -/
def dropSubscription (self : WebSocketClientDriver) (id : String) : WebSocketClientDriver where
  router := self.router.dropSubscription id
  pendingCommands :=
    match self.pendingCommands.lookup id with
    | some (.subscribe id' query _) => self.pendingCommands.insert id (.subscribe id' query ⟨false⟩)
    | _ => self.pendingCommands

/-- One turn of `WebSocketClientDriver::run`. -/
def step (self : WebSocketClientDriver) : Input → List Output × WebSocketClientDriver
  | .command (.subscribe id query subscriptionTx) _ => self.subscribe id query subscriptionTx
  | .command (.unsubscribe query) reqId => self.unsubscribe query reqId
  | .command (.simpleRequest id) _ => self.simpleRequest id
  | .message msg reqId => self.handleTextMsg reqId msg
  | .drop id => ([], self.dropSubscription id)

/-- The steps of the driver as a labelled relation, whose traces are its runs. -/
def Steps (self : WebSocketClientDriver) (input : Input) (outputs : List Output)
    (self' : WebSocketClientDriver) : Prop :=
  self.step input = (outputs, self')

theorem steps_step {self : WebSocketClientDriver} {input : Input} :
    Steps self input (self.step input).1 (self.step input).2 :=
  Prod.mk.eta.symm

theorem Steps.snd {self self' : WebSocketClientDriver} {input : Input} {outputs : List Output}
    (h : Steps self input outputs self') : (self.step input).2 = self' := by
  unfold Steps at h
  rw [h]

/-! ## Publications and responses -/

variable {self : WebSocketClientDriver} {published : PublishResult × SubscriptionRouter}
  {cmd : DriverCommand} {o : Output} {id query reqId : String} {error : Bool}
  {subscriptionTx : SubscriptionTx}

theorem afterPublish_snd :
    (self.afterPublish reqId published).2 = { self with router := published.2 } := by
  unfold afterPublish
  split <;> rfl

/-- A publication only writes requests. -/
theorem afterPublish_fst (h : o ∈ (self.afterPublish reqId published).1) :
    ∃ request, o = .request request := by
  unfold afterPublish at h
  split at h
  · exact ⟨_, List.mem_singleton.mp h⟩
  · cases h

theorem respondToPendingCommand_fst : (self.respondToPendingCommand cmd).1 = [.ok cmd] := by
  cases cmd <;> rfl

/-- Publishing the error of a response keeps the pending commands. -/
theorem published_pendingCommands :
    (if error then self.publishError id reqId else ([], self)).2.pendingCommands =
      self.pendingCommands := by
  split
  · rw [publishError, afterPublish_snd]
  · rfl

theorem published_fst (h : o ∈ (if error then self.publishError id reqId else ([], self)).1) :
    ∃ request, o = .request request := by
  split at h
  · exact afterPublish_fst h
  · cases h

/-- A response to a pending command answers it with `Ok`, error or not. -/
theorem ok_mem_step_response (h : self.pendingCommands.lookup id = some cmd) :
    .ok cmd ∈ (self.step (.message (.response id error) reqId)).1 := by
  simp only [step, handleTextMsg, published_pendingCommands, h, respondToPendingCommand_fst]
  exact List.mem_append_right _ (List.mem_singleton_self _)

/-- An `Unsubscribe` of a query without subscriptions is acknowledged at once and leaves the
pending commands as they were. -/
theorem step_unsubscribe_of_numSubscriptionsForQuery_eq_zero
    (h : self.router.numSubscriptionsForQuery query = 0) :
    self.step (.command (.unsubscribe query) reqId) =
      ([.ok (.unsubscribe query)], { self with router := (self.router.removeByQuery query).2 }) := by
  simp only [step, unsubscribe, SubscriptionRouter.removeByQuery_fst, h, if_true]

/-- A `Subscribe` is acknowledged with `Ok` only together with its entry in the router. -/
theorem hasSubscription_of_ok_subscribe_mem {input : Input}
    (h : .ok (.subscribe id query subscriptionTx) ∈ (self.step input).1) :
    (self.step input).2.router.hasSubscription query id = true := by
  cases input with
  | command cmd reqId =>
    cases cmd with
    | subscribe id' query' subscriptionTx' =>
      simp only [step, subscribe] at h ⊢
      by_cases hn : self.router.numSubscriptionsForQuery query' > 0
      · simp only [hn, if_true] at h ⊢
        obtain ⟨rfl, rfl, rfl⟩ : id = id' ∧ query = query' ∧ subscriptionTx = subscriptionTx' := by
          simpa using h
        exact SubscriptionRouter.hasSubscription_add.mpr (.inl ⟨rfl, rfl⟩)
      · simp [hn] at h
    | unsubscribe query' =>
      simp only [step, unsubscribe] at h
      split at h <;> simp at h
    | simpleRequest id' => simp [step, simpleRequest] at h
  | message msg reqId =>
    cases msg with
    | event query' =>
      obtain ⟨_, hreq⟩ := afterPublish_fst h
      cases hreq
    | response id' error =>
      simp only [step, handleTextMsg, published_pendingCommands] at h ⊢
      cases hl : self.pendingCommands.lookup id' with
      | none =>
        simp only [hl] at h
        obtain ⟨_, hreq⟩ := published_fst h
        cases hreq
      | some pendingCmd =>
        simp only [hl, respondToPendingCommand_fst] at h ⊢
        rcases List.mem_append.mp h with h | h
        · obtain ⟨_, hreq⟩ := published_fst h
          cases hreq
        · -- the command answered is the subscribe acknowledged
          cases List.mem_singleton.mp h
          exact SubscriptionRouter.hasSubscription_add.mpr (.inl ⟨rfl, rfl⟩)
    | other => cases h
  | drop id' => cases h

/-- An error response to a pending `Subscribe` still adds the subscription and acknowledges it with
`Ok`; and an `Unsubscribe` of its query, acknowledged with `Ok` while it waits, does not stop a
later response from adding it. -/
theorem subscription_outlives_error_and_unsubscribe {reqId' : String}
    (hpending : self.pendingCommands.lookup id = some (.subscribe id query subscriptionTx)) :
    (.ok (.subscribe id query subscriptionTx) ∈
        (self.step (.message (.response id true) reqId)).1 ∧
      (self.step (.message (.response id true) reqId)).2.router.hasSubscription query id = true) ∧
    (self.router.numSubscriptionsForQuery query = 0 →
      (self.step (.command (.unsubscribe query) reqId)).1 = [.ok (.unsubscribe query)] ∧
      .ok (.subscribe id query subscriptionTx) ∈
        ((self.step (.command (.unsubscribe query) reqId)).2.step
          (.message (.response id false) reqId')).1 ∧
      ((self.step (.command (.unsubscribe query) reqId)).2.step
          (.message (.response id false) reqId')).2.router.hasSubscription query id = true) := by
  refine ⟨⟨ok_mem_step_response hpending,
    hasSubscription_of_ok_subscribe_mem (ok_mem_step_response hpending)⟩, fun hzero => ?_⟩
  rw [step_unsubscribe_of_numSubscriptionsForQuery_eq_zero hzero]
  -- the unsubscribe left the pending subscribe where it was
  have hpending' : ({ self with router := (self.router.removeByQuery query).2 } :
      WebSocketClientDriver).pendingCommands.lookup id = some (.subscribe id query subscriptionTx) :=
    hpending
  exact ⟨rfl, ok_mem_step_response hpending',
    hasSubscription_of_ok_subscribe_mem (ok_mem_step_response hpending')⟩

theorem subscription_outlives_error_and_unsubscribe_on_new_driver :
    let self := (new.step (.command (.subscribe "a" "q" ⟨true⟩) "r")).2
    (self.step (.message (.response "a" true) "u")).2.router.hasSubscription "q" "a" = true ∧
      ((self.step (.command (.unsubscribe "q") "u")).2.step
        (.message (.response "a" false) "v")).2.router.hasSubscription "q" "a" = true := by
  intro self
  have h := @subscription_outlives_error_and_unsubscribe self "a" "q" "u" ⟨true⟩ "v" rfl
  exact ⟨h.1.2, (h.2 rfl).2.2⟩

/-! ## Where the router's subscriptions come from -/

/-- A `Subscribe` command for `id` and `query` is among the inputs received. -/
def SubscribeReceived (received : List Input) (id query : String) : Prop :=
  ∃ subscriptionTx reqId, Input.command (.subscribe id query subscriptionTx) reqId ∈ received

theorem SubscribeReceived.append {received more : List Input}
    (h : SubscribeReceived received id query) : SubscribeReceived (received ++ more) id query := by
  obtain ⟨subscriptionTx, reqId, hmem⟩ := h
  exact ⟨subscriptionTx, reqId, List.mem_append_left _ hmem⟩

/-- Every subscription the router holds, and every subscribe command waiting for its response,
comes from a `Subscribe` command received. -/
structure Provenance (received : List Input) (driver : WebSocketClientDriver) : Prop where
  router : ∀ {query id}, driver.router.hasSubscription query id = true →
    SubscribeReceived received id query
  pending : ∀ {key id query subscriptionTx},
    driver.pendingCommands.lookup key = some (.subscribe id query subscriptionTx) →
      SubscribeReceived received id query

namespace Provenance

variable {received : List Input}

theorem new : Provenance [] WebSocketClientDriver.new where
  router h := by simp [WebSocketClientDriver.new] at h
  pending h := by simp [WebSocketClientDriver.new] at h

theorem append {more : List Input} (h : Provenance received self) :
    Provenance (received ++ more) self where
  router hs := (h.router hs).append
  pending hl := (h.pending hl).append

/-- A router that holds only subscriptions the old one held. -/
theorem setRouter {router : SubscriptionRouter} (h : Provenance received self)
    (hr : ∀ {query id}, router.hasSubscription query id = true →
      self.router.hasSubscription query id = true) :
    Provenance received { self with router } where
  router hs := h.router (hr hs)
  pending := h.pending

theorem add (h : Provenance received self) (hc : SubscribeReceived received id query) :
    Provenance received { self with router := self.router.add id query subscriptionTx } where
  router hs := by
    rcases SubscriptionRouter.hasSubscription_add.mp hs with ⟨rfl, rfl⟩ | hs
    · exact hc
    · exact h.router hs
  pending := h.pending

theorem insert {key : String} (h : Provenance received self)
    (hc : ∀ {id query subscriptionTx}, cmd = .subscribe id query subscriptionTx →
      SubscribeReceived received id query) :
    Provenance received { self with pendingCommands := self.pendingCommands.insert key cmd } where
  router := h.router
  pending {key'} _ _ _ hl := by
    by_cases hk : key' = key
    · subst hk
      rw [AList.lookup_insert] at hl
      exact hc (Option.some.inj hl)
    · rw [AList.lookup_insert_ne hk] at hl
      exact h.pending hl

theorem erase {key : String} (h : Provenance received self) :
    Provenance received { self with pendingCommands := self.pendingCommands.erase key } where
  router := h.router
  pending {key'} _ _ _ hl := by
    by_cases hk : key' = key
    · subst hk
      simp at hl
    · rw [AList.lookup_erase_ne hk] at hl
      exact h.pending hl

theorem afterPublish (h : Provenance received self)
    (hr : ∀ {query id}, published.2.hasSubscription query id = true →
      self.router.hasSubscription query id = true) :
    Provenance received (self.afterPublish reqId published).2 := by
  rw [afterPublish_snd]
  exact h.setRouter hr

theorem respondToPendingCommand (h : Provenance received self)
    (hc : ∀ {id query subscriptionTx}, cmd = .subscribe id query subscriptionTx →
      SubscribeReceived received id query) :
    Provenance received (self.respondToPendingCommand cmd).2 := by
  cases cmd with
  | subscribe id query subscriptionTx => exact h.add (hc rfl)
  | unsubscribe => exact h
  | simpleRequest => exact h

theorem handleTextMsg {msg : Message} (h : Provenance received self) :
    Provenance received (self.handleTextMsg reqId msg).2 := by
  cases msg with
  | event query => exact h.afterPublish SubscriptionRouter.hasSubscription_of_publish
  | response id error =>
    -- the error is published first, and only removes subscriptions
    have hpub : Provenance received (if error then self.publishError id reqId else ([], self)).2 := by
      split
      · exact h.afterPublish SubscriptionRouter.hasSubscription_of_publishError
      · exact h
    simp only [WebSocketClientDriver.handleTextMsg]
    split
    · next pendingCmd hl =>
      exact hpub.erase.respondToPendingCommand fun heq => hpub.pending (heq ▸ hl)
    · exact hpub
  | other => exact h

theorem dropSubscription (h : Provenance received self) :
    Provenance received (self.dropSubscription id) where
  router hs := by
    rw [WebSocketClientDriver.dropSubscription, SubscriptionRouter.hasSubscription_dropSubscription]
      at hs
    exact h.router hs
  pending {key} _ _ _ hl := by
    simp only [WebSocketClientDriver.dropSubscription] at hl
    split at hl
    · -- the waiting subscribe of `id` was received with another channel
      next id' query' subscriptionTx' hid =>
      by_cases hk : key = id
      · subst hk
        rw [AList.lookup_insert] at hl
        cases hl
        exact h.pending hid
      · rw [AList.lookup_insert_ne hk] at hl
        exact h.pending hl
    · exact h.pending hl

/-- Every step keeps the provenance, with its input received. -/
theorem step {input : Input} (h : Provenance received self) :
    Provenance (received ++ [input]) (self.step input).2 := by
  have h' : Provenance (received ++ [input]) self := h.append
  cases input with
  | command cmd reqId =>
    cases cmd with
    | subscribe id query subscriptionTx =>
      have hc : SubscribeReceived (received ++ [.command (.subscribe id query subscriptionTx) reqId])
          id query := ⟨subscriptionTx, reqId, by simp⟩
      simp only [WebSocketClientDriver.step, subscribe]
      split
      · exact h'.add hc
      · exact h'.insert fun heq => by cases heq; exact hc
    | unsubscribe query =>
      have hr : Provenance (received ++ [.command (.unsubscribe query) reqId])
          { self with router := (self.router.removeByQuery query).2 } :=
        h'.setRouter SubscriptionRouter.hasSubscription_of_removeByQuery
      simp only [WebSocketClientDriver.step, unsubscribe]
      split
      · exact hr
      · exact hr.insert fun heq => by cases heq
    | simpleRequest id => exact h'.insert fun heq => by cases heq
  | message msg reqId => exact h'.handleTextMsg
  | drop id => exact h'.dropSubscription

end Provenance

/-- In every run of the driver, under any interleaving of commands, messages from the server and
dropped subscriptions, the router holds a subscription only if a `Subscribe` command of it was
received. -/
theorem router_subscriptions_come_from_commands {inputs : List Input}
    {outputs : List (List Output)} (hrun : Stream.Trace Steps new inputs outputs self)
    (hs : self.router.hasSubscription query id = true) :
    ∃ subscriptionTx reqId, Input.command (.subscribe id query subscriptionTx) reqId ∈ inputs := by
  have hstep : ∀ {received self input outputs self'}, Steps self input outputs self' →
      Provenance received self → Provenance (received ++ [input]) self' :=
    fun hsteps hP => Steps.snd hsteps ▸ hP.step
  have h : Provenance ([] ++ inputs) self := Stream.Trace.invariant hstep hrun Provenance.new
  exact h.router hs

theorem router_subscriptions_come_from_commands_after_response :
    ∃ subscriptionTx reqId, Input.command (.subscribe "a" "q" subscriptionTx) reqId ∈
      [.command (.subscribe "a" "q" ⟨true⟩) "r", .message (.response "a" false) "r"] :=
  router_subscriptions_come_from_commands (.cons steps_step (.cons steps_step (.nil _))) rfl

end WebSocketClientDriver

end Rpc

end Tendermint
