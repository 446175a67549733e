import Tendermint.Abci.Codec
import Tendermint.Abci.Event
import Tendermint.Lib.Rust

/-!
# ABCI applications, the dispatcher and the server

`application.rs` and `server.rs`. An ABCI application has one method for each ABCI method, each
with a default body (`Application`). `RequestDispatcher::handle` unwraps the value of a request and
answers it with the method of the same kind (`Application.handle`). `Server::handle_client` reads
requests from a connection through the codec and sends back each answer, until the client ends the
stream or an error (`handleClient`).

The methods take `&self`, and clones of an application share their state through whatever the
application keeps behind `&self` (the key/value store's channel to its driver). That state is `σ`
here, threaded through the methods, which may panic: a method is a `StateT σ Option`. A message
keeps the fields that a modelled method reads or writes; the others are left out.

The default `prepare_proposal` drops transactions off the end of the list until their total size is
within `max_tx_bytes`. While the sizes add up to no more than `usize::MAX`, it returns the longest
prefix of the transactions that fits (`defaultPrepareProposal_spec`). `handle` answers every
request with the response of the method it asked for
(`handle_answers_with_the_requested_method`). And over a connection that delivers the frames of
some requests in any parts, `handle_client` sends back exactly the frames of the application's
answers to them, in order (`handle_client_answers_each_request_in_order`).
-/

namespace Tendermint

namespace Abci

/-! ## Messages -/

structure RequestEcho where
  message : String

structure ResponseEcho where
  message : String

structure RequestFlush

structure ResponseFlush

/-- `RequestInfo`, whose version fields only a log reads. -/
structure RequestInfo

structure ResponseInfo where
  data : String := ""
  version : String := ""
  appVersion : Nat := 0
  lastBlockHeight : Int := 0
  lastBlockAppHash : Bytes := []

structure RequestInitChain

structure ResponseInitChain

/-- `RequestQuery`: the key/value store reads `data` alone. -/
structure RequestQuery where
  data : Bytes

/-- `ResponseQuery`, without `proof_ops`, which no modelled method sets. -/
structure ResponseQuery where
  code : Nat := 0
  log : String := ""
  info : String := ""
  index : Int := 0
  key : Bytes := []
  value : Bytes := []
  height : Int := 0
  codespace : String := ""

structure RequestCheckTx

structure ResponseCheckTx where
  code : Nat := 0
  data : Bytes := []
  log : String := ""
  info : String := ""
  gasWanted : Int := 0
  gasUsed : Int := 0
  events : List (Pb.Event Pb.V038.EventAttribute) := []
  codespace : String := ""

structure RequestCommit

structure ResponseCommit where
  retainHeight : Int := 0

structure RequestListSnapshots

structure ResponseListSnapshots

structure RequestOfferSnapshot

structure ResponseOfferSnapshot

structure RequestLoadSnapshotChunk

structure ResponseLoadSnapshotChunk

structure RequestApplySnapshotChunk

structure ResponseApplySnapshotChunk

/-- `RequestPrepareProposal`: the default method reads the limit and the transactions. -/
structure RequestPrepareProposal where
  maxTxBytes : Int
  txs : List Bytes

structure ResponsePrepareProposal where
  txs : List Bytes

structure RequestProcessProposal

/-- `ResponseProcessProposal::status`, an `i32` of `ProposalStatus`. -/
structure ResponseProcessProposal where
  status : Int := 0

structure RequestExtendVote

structure ResponseExtendVote

structure RequestVerifyVoteExtension

/-- `ResponseVerifyVoteExtension::status`, an `i32` of `VerifyStatus`. -/
structure ResponseVerifyVoteExtension where
  status : Int := 0

/-- `RequestFinalizeBlock`: the key/value store reads the transactions alone. -/
structure RequestFinalizeBlock where
  txs : List Bytes

/-- `ResponseFinalizeBlock`, with the events, the one field a modelled method sets. -/
structure ResponseFinalizeBlock where
  events : List (Pb.Event Pb.V038.EventAttribute) := []

structure ResponseException where
  error : String

/-- `ProposalStatus`. -/
inductive ProposalStatus
  | unknown
  | accept
  | reject

/-- `ProposalStatus as i32`. -/
def ProposalStatus.toI32 : ProposalStatus → Int
  | .unknown => 0
  | .accept => 1
  | .reject => 2

/-- `VerifyStatus`. -/
inductive VerifyStatus
  | unknown
  | accept
  | reject

/-- `VerifyStatus as i32`. -/
def VerifyStatus.toI32 : VerifyStatus → Int
  | .unknown => 0
  | .accept => 1
  | .reject => 2

/-- The ABCI methods. -/
inductive Method
  | echo | flush | info | initChain | query | checkTx | commit | listSnapshots | offerSnapshot
  | loadSnapshotChunk | applySnapshotChunk | prepareProposal | processProposal | extendVote
  | verifyVoteExtension | finalizeBlock
deriving DecidableEq

/-- `request::Value`. -/
inductive Request.Value
  | echo (request : RequestEcho)
  | flush (request : RequestFlush)
  | info (request : RequestInfo)
  | initChain (request : RequestInitChain)
  | query (request : RequestQuery)
  | checkTx (request : RequestCheckTx)
  | commit (request : RequestCommit)
  | listSnapshots (request : RequestListSnapshots)
  | offerSnapshot (request : RequestOfferSnapshot)
  | loadSnapshotChunk (request : RequestLoadSnapshotChunk)
  | applySnapshotChunk (request : RequestApplySnapshotChunk)
  | prepareProposal (request : RequestPrepareProposal)
  | processProposal (request : RequestProcessProposal)
  | extendVote (request : RequestExtendVote)
  | verifyVoteExtension (request : RequestVerifyVoteExtension)
  | finalizeBlock (request : RequestFinalizeBlock)

/-- `Request`. -/
structure Request where
  value : Option Request.Value

/-- `response::Value`. -/
inductive Response.Value
  | exception (response : ResponseException)
  | echo (response : ResponseEcho)
  | flush (response : ResponseFlush)
  | info (response : ResponseInfo)
  | initChain (response : ResponseInitChain)
  | query (response : ResponseQuery)
  | checkTx (response : ResponseCheckTx)
  | commit (response : ResponseCommit)
  | listSnapshots (response : ResponseListSnapshots)
  | offerSnapshot (response : ResponseOfferSnapshot)
  | loadSnapshotChunk (response : ResponseLoadSnapshotChunk)
  | applySnapshotChunk (response : ResponseApplySnapshotChunk)
  | prepareProposal (response : ResponsePrepareProposal)
  | processProposal (response : ResponseProcessProposal)
  | extendVote (response : ResponseExtendVote)
  | verifyVoteExtension (response : ResponseVerifyVoteExtension)
  | finalizeBlock (response : ResponseFinalizeBlock)

/-- `Response`. -/
structure Response where
  value : Option Response.Value

/-- The method a request asks for. -/
def Request.Value.method : Request.Value → Method
  | .echo _ => .echo
  | .flush _ => .flush
  | .info _ => .info
  | .initChain _ => .initChain
  | .query _ => .query
  | .checkTx _ => .checkTx
  | .commit _ => .commit
  | .listSnapshots _ => .listSnapshots
  | .offerSnapshot _ => .offerSnapshot
  | .loadSnapshotChunk _ => .loadSnapshotChunk
  | .applySnapshotChunk _ => .applySnapshotChunk
  | .prepareProposal _ => .prepareProposal
  | .processProposal _ => .processProposal
  | .extendVote _ => .extendVote
  | .verifyVoteExtension _ => .verifyVoteExtension
  | .finalizeBlock _ => .finalizeBlock

/-- The method a response answers; an exception answers none. -/
def Response.Value.method : Response.Value → Option Method
  | .exception _ => none
  | .echo _ => some .echo
  | .flush _ => some .flush
  | .info _ => some .info
  | .initChain _ => some .initChain
  | .query _ => some .query
  | .checkTx _ => some .checkTx
  | .commit _ => some .commit
  | .listSnapshots _ => some .listSnapshots
  | .offerSnapshot _ => some .offerSnapshot
  | .loadSnapshotChunk _ => some .loadSnapshotChunk
  | .applySnapshotChunk _ => some .applySnapshotChunk
  | .prepareProposal _ => some .prepareProposal
  | .processProposal _ => some .processProposal
  | .extendVote _ => some .extendVote
  | .verifyVoteExtension _ => some .verifyVoteExtension
  | .finalizeBlock _ => some .finalizeBlock

/-! ## The default `prepare_proposal` -/

/-- `usize::MAX`. -/
def usizeMax : Nat := 2 ^ 64 - 1

/-- The `while` loop of the default `prepare_proposal`, on the transactions in reverse, so that
`txs.pop()` takes the head: while the total is above the limit, drop a transaction and subtract
its size (`saturating_sub`, which is `Nat` subtraction). -/
def prepareProposal.loop (maxTxBytes : Nat) : List Bytes → Nat → List Bytes
  | [], _ => []
  | tx :: rest, totalTxBytes =>
    if maxTxBytes < totalTxBytes then loop maxTxBytes rest (totalTxBytes - tx.length)
    else tx :: rest

/-- The default `Application::prepare_proposal`. A negative `max_tx_bytes` is zero: the
`try_into().unwrap_or(0)` of an `i64` into a `usize` is `Int.toNat`. The total is the sizes added
with `saturating_add`. -/
def defaultPrepareProposal (request : RequestPrepareProposal) : ResponsePrepareProposal :=
  let maxTxBytes := request.maxTxBytes.toNat
  let totalTxBytes := request.txs.foldl (fun acc tx => min (acc + tx.length) usizeMax) 0
  ⟨(prepareProposal.loop maxTxBytes request.txs.reverse totalTxBytes).reverse⟩

/-- The total size of transactions. -/
def txBytes (txs : List Bytes) : Nat := (txs.map List.length).sum

@[simp] theorem txBytes_nil : txBytes [] = 0 := rfl

@[simp] theorem txBytes_cons (tx : Bytes) (txs : List Bytes) :
    txBytes (tx :: txs) = tx.length + txBytes txs := by
  simp [txBytes]

theorem txBytes_reverse (txs : List Bytes) : txBytes txs.reverse = txBytes txs := by
  simp [txBytes, List.sum_reverse]

/-- On the exact size of the transactions left, the loop drops them from the head until what is
left fits, and stops at the first suffix that does. The induction is on the transactions. -/
theorem prepareProposal.loop_spec (maxTxBytes : Nat) :
    ∀ l : List Bytes, ∃ j ≤ l.length, loop maxTxBytes l (txBytes l) = l.drop j ∧
      txBytes (l.drop j) ≤ maxTxBytes ∧ (j = 0 ∨ maxTxBytes < txBytes (l.drop (j - 1)))
  | [] => ⟨0, le_rfl, rfl, by simp, .inl rfl⟩
  | tx :: rest => by
    by_cases hfit : maxTxBytes < txBytes (tx :: rest)
    · -- the head goes, and the loop goes on with the exact size of the rest
      obtain ⟨j, hj, hloop, hle, hmax⟩ := loop_spec maxTxBytes rest
      have htotal : txBytes (tx :: rest) - tx.length = txBytes rest := by simp
      refine ⟨j + 1, by simpa using hj, ?_, hle, .inr ?_⟩
      · rw [loop, if_pos hfit, htotal, hloop, List.drop_succ_cons]
      · cases j with
        | zero => simpa using hfit
        | succ j =>
          rcases hmax with h | h
          · cases h
          · simpa using h
    · exact ⟨0, Nat.zero_le _, by rw [loop, if_neg hfit]; rfl, not_lt.mp hfit, .inl rfl⟩

/-- The default `prepare_proposal` returns the longest prefix of the transactions whose total size
is within the limit, while the sizes add up to no more than `usize::MAX`, so that the saturating
arithmetic computes the exact total. -/
theorem defaultPrepareProposal_spec (request : RequestPrepareProposal)
    (hsum : txBytes request.txs ≤ usizeMax) :
    ∃ k, (defaultPrepareProposal request).txs = request.txs.take k ∧
      txBytes (request.txs.take k) ≤ request.maxTxBytes.toNat ∧
      (k = request.txs.length ∨
        request.maxTxBytes.toNat < txBytes (request.txs.take (k + 1))) := by
  have htotal : request.txs.foldl (fun acc tx => min (acc + tx.length) usizeMax) 0 =
      txBytes request.txs.reverse := by
    rw [Rust.foldl_saturatingAdd List.length usizeMax _ 0 (Nat.zero_le _), txBytes_reverse]
    unfold txBytes at hsum ⊢
    omega
  -- a suffix of the reversed transactions is a prefix of the transactions
  have hdrop : ∀ i, txBytes (request.txs.reverse.drop i) =
      txBytes (request.txs.take (request.txs.length - i)) := fun i => by
    rw [List.drop_reverse, txBytes_reverse]
  obtain ⟨j, hj, hloop, hle, hmax⟩ :=
    prepareProposal.loop_spec request.maxTxBytes.toNat request.txs.reverse
  rw [List.length_reverse] at hj
  refine ⟨request.txs.length - j, ?_, by rwa [← hdrop], ?_⟩
  · simp only [defaultPrepareProposal, htotal, hloop, List.drop_reverse, List.reverse_reverse]
  · rcases Nat.eq_zero_or_pos j with rfl | hpos
    · exact .inl (Nat.sub_zero _)
    · rcases hmax with h | hmax
      · omega
      · right
        rw [hdrop, show request.txs.length - (j - 1) = request.txs.length - j + 1 by omega]
          at hmax
        exact hmax

/-- Of transactions of sizes three, two and one under a limit of five, the last is dropped. -/
theorem defaultPrepareProposal_drops_the_last_transaction :
    txBytes [[1, 2, 3], [4, 5], [6]] ≤ usizeMax ∧
      ∃ k, (defaultPrepareProposal ⟨5, [[1, 2, 3], [4, 5], [6]]⟩).txs =
          [[1, 2, 3], [4, 5], [6]].take k ∧
        txBytes ([[1, 2, 3], [4, 5], [6]].take k) ≤ (5 : Int).toNat ∧
        (k = [[1, 2, 3], [4, 5], [6]].length ∨
          (5 : Int).toNat < txBytes ([[1, 2, 3], [4, 5], [6]].take (k + 1))) :=
  ⟨by decide, defaultPrepareProposal_spec ⟨5, [[1, 2, 3], [4, 5], [6]]⟩ (by decide)⟩

/-! ## Applications -/

/-- `Application`: a method for each ABCI method, with the trait's default bodies as defaults.
Clones of the application share the state `σ`. -/
structure Application (σ : Type) where
  echo : RequestEcho → StateT σ Option ResponseEcho := fun request => pure ⟨request.message⟩
  info : RequestInfo → StateT σ Option ResponseInfo := fun _ => pure {}
  initChain : RequestInitChain → StateT σ Option ResponseInitChain := fun _ => pure {}
  query : RequestQuery → StateT σ Option ResponseQuery := fun _ => pure {}
  checkTx : RequestCheckTx → StateT σ Option ResponseCheckTx := fun _ => pure {}
  flush : StateT σ Option ResponseFlush := pure {}
  commit : StateT σ Option ResponseCommit := pure {}
  listSnapshots : StateT σ Option ResponseListSnapshots := pure {}
  offerSnapshot : RequestOfferSnapshot → StateT σ Option ResponseOfferSnapshot := fun _ => pure {}
  loadSnapshotChunk : RequestLoadSnapshotChunk → StateT σ Option ResponseLoadSnapshotChunk :=
    fun _ => pure {}
  applySnapshotChunk : RequestApplySnapshotChunk → StateT σ Option ResponseApplySnapshotChunk :=
    fun _ => pure {}
  prepareProposal : RequestPrepareProposal → StateT σ Option ResponsePrepareProposal :=
    fun request => pure (defaultPrepareProposal request)
  processProposal : RequestProcessProposal → StateT σ Option ResponseProcessProposal :=
    fun _ => pure ⟨ProposalStatus.accept.toI32⟩
  extendVote : RequestExtendVote → StateT σ Option ResponseExtendVote := fun _ => pure {}
  verifyVoteExtension : RequestVerifyVoteExtension →
      StateT σ Option ResponseVerifyVoteExtension :=
    fun _ => pure ⟨VerifyStatus.accept.toI32⟩
  finalizeBlock : RequestFinalizeBlock → StateT σ Option ResponseFinalizeBlock := fun _ => pure {}

/-- `EchoApp`: the trait's default for every method, with no state of its own. -/
def EchoApp.application : Application Unit := {}

namespace Application

variable {σ : Type}

/-- The `match` of `RequestDispatcher::handle`: the method a request's value asks for, whose
response is wrapped in the value of the same kind. -/
def respond (self : Application σ) : Request.Value → StateT σ Option Response.Value
  | .echo req => .echo <$> self.echo req
  | .flush _ => .flush <$> self.flush
  | .info req => .info <$> self.info req
  | .initChain req => .initChain <$> self.initChain req
  | .query req => .query <$> self.query req
  | .checkTx req => .checkTx <$> self.checkTx req
  | .commit _ => .commit <$> self.commit
  | .listSnapshots _ => .listSnapshots <$> self.listSnapshots
  | .offerSnapshot req => .offerSnapshot <$> self.offerSnapshot req
  | .loadSnapshotChunk req => .loadSnapshotChunk <$> self.loadSnapshotChunk req
  | .applySnapshotChunk req => .applySnapshotChunk <$> self.applySnapshotChunk req
  | .prepareProposal req => .prepareProposal <$> self.prepareProposal req
  | .processProposal req => .processProposal <$> self.processProposal req
  | .extendVote req => .extendVote <$> self.extendVote req
  | .verifyVoteExtension req => .verifyVoteExtension <$> self.verifyVoteExtension req
  | .finalizeBlock req => .finalizeBlock <$> self.finalizeBlock req

/-- `RequestDispatcher::handle`. A request without a value panics (`unwrap`). -/
def handle (self : Application σ) (request : Request) : StateT σ Option Response := do
  let value ← StateT.lift request.value
  let response ← self.respond value
  pure ⟨some response⟩

/-- `handle` runs the method of a request's value and wraps its response. -/
theorem handle_run_eq_some {self : Application σ} {request : Request} {s s' : σ}
    {response : Response} :
    (self.handle request).run s = some (response, s') ↔
      ∃ value v, request.value = some value ∧ (self.respond value).run s = some (v, s') ∧
        response = ⟨some v⟩ := by
  unfold handle
  cases request.value with
  | none => simp
  | some value =>
    simp only [StateT.run_bind, StateT.run_lift, StateT.run_pure, Option.bind_eq_bind,
      Option.bind_some, Option.pure_def, Option.bind_eq_some_iff, Option.some.injEq,
      Prod.mk.injEq, Prod.exists]
    constructor
    · rintro ⟨v, s₁, hr, rfl, rfl⟩
      exact ⟨value, v, rfl, hr, rfl⟩
    · rintro ⟨_, v, rfl, hr, rfl⟩
      exact ⟨v, s', hr, rfl, rfl⟩

/-- `handle` panics on a request without a value, and where the method of its value panics. -/
theorem handle_run_eq_none {self : Application σ} {request : Request} {s : σ} :
    (self.handle request).run s = none ↔
      request.value = none ∨ ∃ value, request.value = some value ∧ (self.respond value).run s = none := by
  unfold handle
  cases request.value with
  | none => simp
  | some value =>
    simp only [StateT.run_bind, StateT.run_lift, StateT.run_pure, Option.bind_eq_bind,
      Option.bind_some, Option.pure_def, reduceCtorEq, Option.some.injEq, exists_eq_left',
      false_or]
    rcases hr : (self.respond value).run s with _ | ⟨v, s₁⟩ <;> simp

end Application

/-! ## The server -/

section Server

variable {σ τ I O : Type} [Message I] [Message O]

/-- A round of the loop of `Server::handle_client`, whose application answers by its dispatcher
`handle`: read a request, answer it and send the answer, or end the loop at the end of the stream
or on an error. A call of `next` that spends its `fuel` rounds is `none`, as a panic is. -/
def handleClientBody (rw : ReadWrite τ) (fuel : Nat) (handle : I → StateT σ Option O) (_ : Nat)
    (st : Codec τ × σ) : Option (Loop.Step (Codec τ × σ) (Codec τ × σ)) :=
  match Codec.next (M := I) rw fuel st.1 with
  | some (.done (some (.ok request), codec)) =>
    match (handle request).run st.2 with
    | none => none
    | some (response, state) =>
      match Codec.send rw codec response with
      | some (.ok (), codec) => some (.next (codec, state))
      | some (.error _, codec) => some (.done (codec, state))
      | none => none
  | some (.done (some (.error _), codec)) => some (.done (codec, st.2))
  | some (.done (none, codec)) => some (.done (codec, st.2))
  | _ => none

/-- `Server::handle_client` on a connection, for at most `rounds` requests, each read with at most
`fuel` rounds of `next`: the codec and the application's state when it returns. -/
def handleClient (rw : ReadWrite τ) (fuel rounds : Nat) (handle : I → StateT σ Option O)
    (stream : τ) (readBufSize : Nat) (state : σ) : Option (Loop.Step (Codec τ × σ) (Codec τ × σ)) :=
  Loop.run (handleClientBody rw fuel handle) rounds 0 (Codec.new stream readBufSize, state)

/-! ### Over a stream in memory -/

section Memory

variable {handle : I → StateT σ Option O} {fuel : Nat}

/-- A frame is never empty: its length takes at least one byte. -/
theorem encodeLengthDelimited_ne_nil (m : O) : encodeLengthDelimited m ≠ [] := by
  simp only [encodeLengthDelimited, Varint.encode, Varint.encodeLoop, ne_eq, List.append_eq_nil_iff,
    not_and]
  split <;> simp

/-- `Codec::send` on the memory stream hands it the write buffer and the message's frame in one
write, and leaves the parts still to read as they were. -/
theorem send_memoryStream (self : Codec (List UInt8 × List (List UInt8))) (m : O) :
    Codec.send memoryStream self m = some (.ok (), { self with
      stream := (self.stream.1 ++ (self.writeBuf ++ encodeLengthDelimited m), self.stream.2),
      writeBuf := [] }) := by
  have hne : self.writeBuf ++ encodeLengthDelimited m ≠ [] := by
    simp [encodeLengthDelimited_ne_nil]
  obtain ⟨k, hk⟩ : ∃ k, (self.writeBuf ++ encodeLengthDelimited m).length + 1 = k + 2 :=
    ⟨(self.writeBuf ++ encodeLengthDelimited m).length - 1, by
      have := List.length_pos_of_ne_nil hne
      omega⟩
  -- one round writes the whole buffer, and the next finds it empty
  have hwrite : sendBody memoryStream 0 { self with writeBuf := self.writeBuf ++ encodeLengthDelimited m } =
      some (.next { self with
        stream := (self.stream.1 ++ (self.writeBuf ++ encodeLengthDelimited m), self.stream.2),
        writeBuf := [] }) := by
    simp [sendBody, memoryStream, encodeLengthDelimited_ne_nil]
  have hempty : sendBody memoryStream 1 { self with
      stream := (self.stream.1 ++ (self.writeBuf ++ encodeLengthDelimited m), self.stream.2),
      writeBuf := [] } = some (.done (.ok (), { self with
        stream := (self.stream.1 ++ (self.writeBuf ++ encodeLengthDelimited m), self.stream.2),
        writeBuf := [] })) := by
    simp [sendBody]
  simp only [Codec.send, hk, Loop.run_succ_of_next hwrite, Loop.run_succ_of_done hempty]
  rfl

/-- A round of `next` on the memory stream that goes round leaves the bytes written and the write
buffer as they were. -/
theorem nextBody_memoryStream_next {n : Nat} {self self' : Codec (List UInt8 × List (List UInt8))}
    (h : nextBody (M := I) memoryStream n self = some (.next self')) :
    self'.writeBuf = self.writeBuf ∧ self'.stream.1 = self.stream.1 := by
  unfold nextBody at h
  split at h
  · cases h
  · cases h
  · -- only a part read goes round, and reading keeps the bytes written
    rcases hs : self.stream with ⟨written, _ | ⟨part, parts⟩⟩ <;> simp only [hs, memoryStream] at h
    all_goals
      split_ifs at h <;> simp only [Option.some.injEq, Loop.Step.next.injEq, reduceCtorEq] at h
      subst h
      exact ⟨rfl, rfl⟩

/-- A round of `next` on the memory stream that returns leaves the bytes written and the write
buffer as they were. -/
theorem nextBody_memoryStream_done {n : Nat} {self self' : Codec (List UInt8 × List (List UInt8))}
    {r : Option (Except Error I)} (h : nextBody memoryStream n self = some (.done (r, self'))) :
    self'.writeBuf = self.writeBuf ∧ self'.stream.1 = self.stream.1 := by
  unfold nextBody at h
  split at h
  · cases h
    exact ⟨rfl, rfl⟩
  · cases h
    exact ⟨rfl, rfl⟩
  · -- the end of the stream returns, and reading keeps the bytes written
    rcases hs : self.stream with ⟨written, _ | ⟨part, parts⟩⟩ <;> simp only [hs, memoryStream] at h
    all_goals
      split_ifs at h <;>
        simp only [Option.some.injEq, Loop.Step.done.injEq, Prod.mk.injEq, reduceCtorEq] at h
      obtain ⟨-, rfl⟩ := h
      exact ⟨rfl, rfl⟩

/-- A call of `next` on the memory stream leaves the bytes written and the write buffer as they
were: the invariant of its loop. -/
theorem next_memoryStream {self self' : Codec (List UInt8 × List (List UInt8))}
    {r : Option (Except Error I)} (h : Codec.next memoryStream fuel self = some (.done (r, self'))) :
    self'.writeBuf = self.writeBuf ∧ self'.stream.1 = self.stream.1 := by
  obtain ⟨m, c, hreach, hdone⟩ := Loop.run_eq_done h
  have hc := hreach.inv (fun _ c => c.writeBuf = self.writeBuf ∧ c.stream.1 = self.stream.1)
    (fun _ c c' hinv hb => by
      obtain ⟨hw, hs⟩ := nextBody_memoryStream_next hb
      exact ⟨hw.trans hinv.1, hs.trans hinv.2⟩) ⟨rfl, rfl⟩
  obtain ⟨hw, hs⟩ := nextBody_memoryStream_done hdone
  exact ⟨hw.trans hc.1, hs.trans hc.2⟩

/-- What the memory stream delivers does not depend on the bytes written to it. -/
theorem Delivers.memoryStream_written {window : Nat} {s : List UInt8 × List (List UInt8)}
    {parts : List (List UInt8)} (h : Delivers memoryStream window s parts) (written : List UInt8) :
    Delivers memoryStream window (written, s.2) parts := by
  induction h with
  | @eof s s' hread =>
    rcases s with ⟨w, _ | ⟨part, ps⟩⟩ <;> simp only [memoryStream] at hread
    · exact .eof rfl
    · simp only [Except.ok.injEq, Prod.mk.injEq] at hread
      obtain ⟨rfl, -⟩ := hread
      exact .eof rfl
  | @read s s' part parts hread hne hle _ ih =>
    rcases s with ⟨w, _ | ⟨p, ps⟩⟩ <;> simp only [memoryStream, Except.ok.injEq, Prod.mk.injEq] at hread
    · exact absurd hread.1.symm hne
    · obtain ⟨rfl, rfl⟩ := hread
      exact .read rfl hne hle ih

/-- What is pending on the memory stream does not depend on the bytes written to it. -/
theorem Pending.memoryStream_write {codec : Codec (List UInt8 × List (List UInt8))}
    {parts : List (List UInt8)} {bytes : List UInt8} (hp : Pending memoryStream codec parts bytes)
    (written writeBuf : List UInt8) :
    Pending memoryStream { codec with stream := (written, codec.stream.2), writeBuf } parts bytes :=
  ⟨hp.delivers.memoryStream_written written, hp.buf_append⟩

/-- A round of the server over the memory stream, with a whole request pending: it answers it,
sends the frame of the answer, and what follows the request is still pending. -/
theorem handleClientBody_of_pending [LawfulMessage I] (n : Nat) {codec : Codec (List UInt8 × List (List UInt8))}
    {parts : List (List UInt8)} {request : I} {rest : List UInt8} {state state' : σ}
    {response : O} (hp : Pending memoryStream codec parts (encodeLengthDelimited request ++ rest))
    (hw : codec.writeBuf = []) (hfuel : parts.length < fuel)
    (hhandle : (handle request).run state = some (response, state')) :
    ∃ codec' parts', handleClientBody memoryStream fuel handle n (codec, state) =
        some (.next (codec', state')) ∧
      Pending memoryStream codec' parts' rest ∧ codec'.writeBuf = [] ∧
      codec'.stream.1 = codec.stream.1 ++ encodeLengthDelimited response ∧
      parts'.length ≤ parts.length := by
  obtain ⟨codec₁, parts', hnext, hp₁, hlen⟩ := run_nextBody_frame parts codec fuel 0 hfuel hp
  obtain ⟨hw₁, hs₁⟩ := next_memoryStream hnext
  refine ⟨{ codec₁ with
    stream := (codec₁.stream.1 ++ (codec₁.writeBuf ++ encodeLengthDelimited response),
      codec₁.stream.2), writeBuf := [] }, parts', ?_,
    hp₁.memoryStream_write _ [], rfl, ?_, hlen⟩
  · simp only [handleClientBody, Codec.next, hnext, hhandle, send_memoryStream]
  · rw [hs₁, hw₁, hw, List.nil_append]

/-- The server over the memory stream answers the pending requests in turn, then returns at the
end of the stream, having written the frames of the answers. The induction is on the requests. -/
theorem run_handleClientBody [LawfulMessage I] (requests : List I) {codec : Codec (List UInt8 × List (List UInt8))}
    {parts : List (List UInt8)} {state : σ} (n : Nat) {responses : List O} {state' : σ}
    (hp : Pending memoryStream codec parts (requests.map encodeLengthDelimited).flatten)
    (hw : codec.writeBuf = []) (hfuel : parts.length < fuel)
    (hrun : (requests.mapM handle).run state = some (responses, state')) :
    ∃ codec', Loop.run (handleClientBody memoryStream fuel handle) (requests.length + 1) n
        (codec, state) = some (.done (codec', state')) ∧
      codec'.stream.1 = codec.stream.1 ++ (responses.map encodeLengthDelimited).flatten := by
  induction requests generalizing codec parts state n responses with
  | nil =>
    simp only [List.mapM_nil, StateT.run_pure, Option.pure_def, Option.some.injEq,
      Prod.mk.injEq] at hrun
    obtain ⟨rfl, rfl⟩ := hrun
    -- nothing is pending: the round reads the end of the stream and the server returns
    obtain ⟨codec', hnext⟩ := next_of_pending_nil (M := I) (Nat.zero_lt_of_lt hfuel) hp
    obtain ⟨-, hs⟩ := next_memoryStream hnext
    refine ⟨codec', Loop.run_succ_of_done ?_, by simp [hs]⟩
    simp only [handleClientBody, hnext]
  | cons request requests ih =>
    obtain ⟨response, s₁, rest, hhandle, hrest, rfl⟩ := Rust.run_mapM_cons_eq_some.mp hrun
    rw [List.map_cons, List.flatten_cons] at hp
    obtain ⟨codec₁, parts₁, hbody, hp₁, hw₁, hs₁, hlen⟩ :=
      handleClientBody_of_pending n hp hw hfuel hhandle
    obtain ⟨codec', hrun', hs'⟩ := ih (n + 1) hp₁ hw₁ (by omega) hrest
    refine ⟨codec', ?_, ?_⟩
    · rw [List.length_cons, Loop.run_succ_of_next hbody]
      exact hrun'
    · rw [hs', hs₁, List.map_cons, List.flatten_cons, List.append_assoc]

/-- `handle_client` answers every request a client sends, in order: over a connection that
delivers the frames of the requests in any non-empty parts that fit its read buffer, it answers
each with the application's dispatcher, threading the application's state, writes exactly the
frames of the answers, one after the other, and returns at the end of the stream. -/
theorem handle_client_answers_each_request_in_order [LawfulMessage I] (handle : I → StateT σ Option O)
    (requests : List I) (parts : List (List UInt8)) (window : Nat)
    (hparts : ∀ part ∈ parts, part ≠ [] ∧ part.length ≤ window)
    (hsplit : parts.flatten = (requests.map encodeLengthDelimited).flatten) (state : σ)
    (responses : List O) (state' : σ)
    (hrun : (requests.mapM handle).run state = some (responses, state')) :
    ∃ codec, handleClient memoryStream (parts.length + 1) (requests.length + 1) handle
        ([], parts) window state = some (.done (codec, state')) ∧
      codec.stream.1 = (responses.map encodeLengthDelimited).flatten := by
  have hp : Pending memoryStream (Codec.new ([], parts) window) parts
      (requests.map encodeLengthDelimited).flatten :=
    ⟨delivers_memoryStream [] parts hparts, by rw [← hsplit]; rfl⟩
  obtain ⟨codec, hrun', hs⟩ :=
    run_handleClientBody requests 0 hp rfl (Nat.lt_succ_self _) hrun
  exact ⟨codec, hrun', hs⟩

/-- A server that answers each byte with the next one, sent two requests in three parts. -/
theorem handle_client_answers_two_bytes_read_in_three_parts :
    (∀ part ∈ [[1], [5, 1], [7]], part ≠ [] ∧ part.length ≤ 2) ∧
      [[1], [5, 1], [7]].flatten = ([(5 : UInt8), 7].map encodeLengthDelimited).flatten ∧
      ([(5 : UInt8), 7].mapM fun b => (pure (b + 1) : StateT Unit Option UInt8)).run () =
        some ([6, 8], ()) ∧
      ∃ codec, handleClient memoryStream ([[1], [5, 1], [7]].length + 1) ([(5 : UInt8), 7].length + 1)
          (fun b => (pure (b + 1) : StateT Unit Option UInt8)) ([], [[1], [5, 1], [7]]) 2 () =
            some (.done (codec, ())) ∧
        codec.stream.1 = ([(6 : UInt8), 8].map encodeLengthDelimited).flatten :=
  ⟨by decide, by decide, rfl, handle_client_answers_each_request_in_order _ [5, 7] [[1], [5, 1], [7]]
    2 (by decide) (by decide) () [6, 8] () rfl⟩

end Memory

end Server

end Abci

end Tendermint
