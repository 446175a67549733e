import Tendermint.Abci.Application

/-!
# The blocking ABCI client

`client.rs`: a `Client` holds a `ClientCodec`, a codec that sends `Request`s and reads
`Response`s. `Client::perform` sends a request, reads one response and takes its value; each
method (`echo`, `info`, …) performs its request and takes the response of its own kind, or fails
with `UnexpectedServerResponseType` (the `perform!` macro, `Client.performAs`).

The codec is generic in its messages, and so is what `perform` does with it: send a message built
from a value, read one back and take a value out of it (`Client.exchange`). The concrete
`Client.perform` wraps a `request::Value` into a `Request` and takes the `value` of the
`Response`.

Two results. Over a stream that delivers the frames of some responses, in any parts, exchanges in
turn return the responses' values in order and write the frames of the requests
(`exchangeAll_of_pending`). And a client and the server of `Application.lean`, each reading what
the other wrote, in any parts, answer as the server's dispatcher does when called directly
(`client_and_server_answer_as_the_dispatcher`). Each party reads a byte stream whose content does
not depend on when it arrives, so the run in which the server reads every request before the
client reads the answers returns what every interleaving returns.
-/

namespace Tendermint

namespace Abci

/-- `DEFAULT_CLIENT_READ_BUF_SIZE`. -/
def defaultClientReadBufSize : Nat := 1024

/-- `Error`, with the variants the client returns: those of its codec and its own. -/
inductive ClientError
  | codec (e : Error)
  | serverConnectionTerminated
  | malformedServerResponse
  | unexpectedServerResponseType (expected : String) (got : Response.Value)

/-- `ClientBuilder`. -/
structure ClientBuilder where
  readBufSize : Nat

/-- `Default for ClientBuilder`. -/
def ClientBuilder.default : ClientBuilder := ⟨defaultClientReadBufSize⟩

/-- `Client`: its codec, over a stream with state `τ`. -/
structure Client (τ : Type) where
  codec : Codec τ

/-- `ClientBuilder::connect`, on the stream that the connection opened. -/
def ClientBuilder.connect {τ : Type} (self : ClientBuilder) (stream : τ) : Client τ :=
  ⟨Codec.new stream self.readBufSize⟩

namespace Client

section Exchange

variable {τ I O V W : Type} [Message I] [Message O]

/-- What `Client::perform` does with its codec: send the message `wrap req`, read one message
back, and take its value. Each `?` returns its error with the codec as it is. -/
def exchange (wrap : V → I) (value : O → Option W) (rw : ReadWrite τ) (fuel : Nat)
    (self : Codec τ) (req : V) : Option (Except ClientError W × Codec τ) :=
  match Codec.send rw self (wrap req) with
  | some (.ok (), codec) =>
    match Codec.next (M := O) rw fuel codec with
    | some (.done (none, codec)) => some (.error .serverConnectionTerminated, codec)
    | some (.done (some (.error e), codec)) => some (.error (.codec e), codec)
    | some (.done (some (.ok res), codec)) =>
      some (Rust.okOr (value res) .malformedServerResponse, codec)
    | _ => none
  | some (.error e, codec) => some (.error (.codec e), codec)
  | none => none

/-- Exchanges in turn, up to the first that fails: the values read, or the first error. -/
def exchangeAll (wrap : V → I) (value : O → Option W) (rw : ReadWrite τ) (fuel : Nat) :
    Codec τ → List V → Option (Except ClientError (List W) × Codec τ)
  | self, [] => some (.ok [], self)
  | self, req :: reqs =>
    match exchange wrap value rw fuel self req with
    | some (.ok w, self) =>
      (exchangeAll wrap value rw fuel self reqs).map fun r => (r.1.map (w :: ·), r.2)
    | some (.error e, self) => some (.error e, self)
    | none => none

end Exchange

section Methods

variable {τ : Type} [Message Request] [Message Response]

/-- `Client::perform`. -/
def perform (rw : ReadWrite τ) (fuel : Nat) (self : Client τ) (req : Request.Value) :
    Option (Except ClientError Response.Value × Client τ) :=
  (exchange (fun req => Request.mk (some req)) Response.value rw fuel self.codec req).map
    fun r => (r.1, ⟨r.2⟩)

/-- The `perform!` macro: perform the request and take the response of the kind `kind` picks
out, named `name`, or fail with the response that came. -/
def performAs {R : Type} (name : String) (kind : Response.Value → Option R) (rw : ReadWrite τ)
    (fuel : Nat) (self : Client τ) (req : Request.Value) : Option (Except ClientError R × Client τ) :=
  match perform rw fuel self req with
  | some (.ok value, self) =>
    match kind value with
    | some r => some (.ok r, self)
    | none => some (.error (.unexpectedServerResponseType name value), self)
  | some (.error e, self) => some (.error e, self)
  | none => none

/-- A typed call returns `r` exactly when `perform` returned a value of the kind it expects,
holding `r`; on any other value it fails naming the kind it expected. -/
theorem performAs_eq_ok {R : Type} {name : String} {kind : Response.Value → Option R}
    {rw : ReadWrite τ} {fuel : Nat} {self self' : Client τ} {req : Request.Value} {r : R} :
    performAs name kind rw fuel self req = some (.ok r, self') ↔
      ∃ value, perform rw fuel self req = some (.ok value, self') ∧ kind value = some r := by
  unfold performAs
  split
  · next value client hperform =>
    rw [hperform]
    split
    · next r' hkind => simp [hkind, and_comm]
    · next hkind => simp [hkind]
  · next e client hperform => simp [hperform]
  · next hperform => simp [hperform]

/-- `Client::echo`. -/
def echo (rw : ReadWrite τ) (fuel : Nat) (self : Client τ) (req : RequestEcho) :=
  performAs "Echo" (fun | .echo r => some r | _ => none) rw fuel self (.echo req)

/-- `Client::info`. -/
def info (rw : ReadWrite τ) (fuel : Nat) (self : Client τ) (req : RequestInfo) :=
  performAs "Info" (fun | .info r => some r | _ => none) rw fuel self (.info req)

/-- `Client::init_chain`. -/
def initChain (rw : ReadWrite τ) (fuel : Nat) (self : Client τ) (req : RequestInitChain) :=
  performAs "InitChain" (fun | .initChain r => some r | _ => none) rw fuel self (.initChain req)

/-- `Client::query`. -/
def query (rw : ReadWrite τ) (fuel : Nat) (self : Client τ) (req : RequestQuery) :=
  performAs "Query" (fun | .query r => some r | _ => none) rw fuel self (.query req)

/-- `Client::check_tx`. -/
def checkTx (rw : ReadWrite τ) (fuel : Nat) (self : Client τ) (req : RequestCheckTx) :=
  performAs "CheckTx" (fun | .checkTx r => some r | _ => none) rw fuel self (.checkTx req)

/-- `Client::flush`. -/
def flush (rw : ReadWrite τ) (fuel : Nat) (self : Client τ) :=
  performAs "Flush" (fun | .flush r => some r | _ => none) rw fuel self (.flush {})

/-- `Client::commit`. -/
def commit (rw : ReadWrite τ) (fuel : Nat) (self : Client τ) :=
  performAs "Commit" (fun | .commit r => some r | _ => none) rw fuel self (.commit {})

/-- `Client::list_snapshots`. -/
def listSnapshots (rw : ReadWrite τ) (fuel : Nat) (self : Client τ) :=
  performAs "ListSnapshots" (fun | .listSnapshots r => some r | _ => none) rw fuel self
    (.listSnapshots {})

/-- `Client::offer_snapshot`. -/
def offerSnapshot (rw : ReadWrite τ) (fuel : Nat) (self : Client τ) (req : RequestOfferSnapshot) :=
  performAs "OfferSnapshot" (fun | .offerSnapshot r => some r | _ => none) rw fuel self
    (.offerSnapshot req)

/-- `Client::load_snapshot_chunk`. -/
def loadSnapshotChunk (rw : ReadWrite τ) (fuel : Nat) (self : Client τ)
    (req : RequestLoadSnapshotChunk) :=
  performAs "LoadSnapshotChunk" (fun | .loadSnapshotChunk r => some r | _ => none) rw fuel self
    (.loadSnapshotChunk req)

/-- `Client::apply_snapshot_chunk`. -/
def applySnapshotChunk (rw : ReadWrite τ) (fuel : Nat) (self : Client τ)
    (req : RequestApplySnapshotChunk) :=
  performAs "ApplySnapshotChunk" (fun | .applySnapshotChunk r => some r | _ => none) rw fuel self
    (.applySnapshotChunk req)

/-- `Client::extend_vote`. -/
def extendVote (rw : ReadWrite τ) (fuel : Nat) (self : Client τ) (req : RequestExtendVote) :=
  performAs "ExtendVote" (fun | .extendVote r => some r | _ => none) rw fuel self (.extendVote req)

/-- `Client::verify_vote_extension`. -/
def verifyVoteExtension (rw : ReadWrite τ) (fuel : Nat) (self : Client τ)
    (req : RequestVerifyVoteExtension) :=
  performAs "VerifyVoteExtension" (fun | .verifyVoteExtension r => some r | _ => none) rw fuel
    self (.verifyVoteExtension req)

/-- `Client::finalize_block`. -/
def finalizeBlock (rw : ReadWrite τ) (fuel : Nat) (self : Client τ) (req : RequestFinalizeBlock) :=
  performAs "FinalizeBlock" (fun | .finalizeBlock r => some r | _ => none) rw fuel self
    (.finalizeBlock req)

end Methods

/-! ## Over a stream in memory -/

section Memory

variable {σ I O V W : Type} [Message I] [Message O] {value : O → Option W} {fuel : Nat}

/-- An exchange over the memory stream, with a whole response pending: it writes the request's
frame and returns the response's value, and what follows the response is still pending. -/
theorem exchange_of_pending [LawfulMessage O] {codec : Codec (List UInt8 × List (List UInt8))}
    {parts : List (List UInt8)} {response : O} {rest : List UInt8} {w : W}
    (hp : Pending memoryStream codec parts (encodeLengthDelimited response ++ rest))
    (hw : codec.writeBuf = []) (hfuel : parts.length < fuel) (hv : value response = some w)
    (wrap : V → I) (req : V) :
    ∃ codec' parts', exchange wrap value memoryStream fuel codec req = some (.ok w, codec') ∧
      Pending memoryStream codec' parts' rest ∧ codec'.writeBuf = [] ∧
      codec'.stream.1 = codec.stream.1 ++ encodeLengthDelimited (wrap req) ∧
      parts'.length ≤ parts.length := by
  -- sending leaves what is pending as it was
  have hp₁ := hp.memoryStream_write
    (codec.stream.1 ++ (codec.writeBuf ++ encodeLengthDelimited (wrap req))) []
  obtain ⟨codec', parts', hnext, hp', hlen⟩ := run_nextBody_frame parts _ fuel 0 hfuel hp₁
  obtain ⟨hw', hs'⟩ := next_memoryStream hnext
  refine ⟨codec', parts', ?_, hp', hw', ?_, hlen⟩
  · simp only [exchange, send_memoryStream, Codec.next, hnext, hv, Rust.okOr_some]
  · rw [hs', hw, List.nil_append]

/-- Exchanges in turn over the memory stream, with a response pending for each request: they
return the responses' values in order and write the requests' frames. The induction is on the
requests. -/
theorem exchangeAll_of_pending [LawfulMessage O] (wrap : V → I) :
    ∀ (reqs : List V) (responses : List O) (ws : List W)
      (codec : Codec (List UInt8 × List (List UInt8))) (parts : List (List UInt8)),
      reqs.length = responses.length → responses.mapM value = some ws →
      Pending memoryStream codec parts (responses.map encodeLengthDelimited).flatten →
      codec.writeBuf = [] → parts.length < fuel →
      ∃ codec', exchangeAll wrap value memoryStream fuel codec reqs = some (.ok ws, codec') ∧
        codec'.stream.1 = codec.stream.1 ++ (reqs.map fun r => encodeLengthDelimited (wrap r)).flatten
  | [], [], ws, codec, _, _, hvalues, _, _, _ => by
    simp only [List.mapM_nil, Option.pure_def, Option.some.injEq] at hvalues
    subst hvalues
    exact ⟨codec, rfl, by simp⟩
  | req :: reqs, response :: responses, ws, codec, parts, hlen, hvalues, hp, hw, hfuel => by
    simp only [List.mapM_cons, Option.bind_eq_bind, Option.bind_eq_some_iff, Option.pure_def,
      Option.some.injEq] at hvalues
    obtain ⟨w, hv, ws', hws', rfl⟩ := hvalues
    rw [List.map_cons, List.flatten_cons] at hp
    obtain ⟨codec₁, parts₁, hex, hp₁, hw₁, hs₁, hlen₁⟩ := exchange_of_pending hp hw hfuel hv wrap req
    obtain ⟨codec', hrest, hs'⟩ := exchangeAll_of_pending wrap reqs responses ws' codec₁ parts₁
      (by simpa using hlen) hws' hp₁ hw₁ (by omega)
    refine ⟨codec', ?_, ?_⟩
    · simp only [exchangeAll, hex, hrest, Option.map_some]
      rfl
    · rw [hs', hs₁, List.map_cons, List.flatten_cons, List.append_assoc]

/-- A client and the server, each reading what the other wrote, answer as the server's
dispatcher does when called directly. Whichever non-empty parts that fit the read windows the
bytes travel in: the server reads the client's requests and writes the frames of the dispatcher's
answers, threading its state, and the client reads those and returns their values, in order,
having written the frames of its requests. -/
theorem client_and_server_answer_as_the_dispatcher [LawfulMessage I] [LawfulMessage O]
    (wrap : V → I) (value : O → Option W) (handle : I → StateT σ Option O) (reqs : List V) (state : σ) (responses : List O)
    (state' : σ) (ws : List W) (hrun : ((reqs.map wrap).mapM handle).run state = some (responses, state'))
    (hvalues : responses.mapM value = some ws) (toServer toClient : List (List UInt8))
    (serverWindow clientWindow : Nat)
    (hserver : ∀ part ∈ toServer, part ≠ [] ∧ part.length ≤ serverWindow)
    (hclient : ∀ part ∈ toClient, part ≠ [] ∧ part.length ≤ clientWindow)
    (hsent : toServer.flatten = (reqs.map fun r => encodeLengthDelimited (wrap r)).flatten)
    (hanswered : toClient.flatten = (responses.map encodeLengthDelimited).flatten) :
    (∃ codec, handleClient memoryStream (toServer.length + 1) (reqs.length + 1) handle
        ([], toServer) serverWindow state = some (.done (codec, state')) ∧
      codec.stream.1 = toClient.flatten) ∧
    ∃ codec, exchangeAll wrap value memoryStream (toClient.length + 1)
        (Codec.new ([], toClient) clientWindow) reqs = some (.ok ws, codec) ∧
      codec.stream.1 = toServer.flatten := by
  have hlen : reqs.length = responses.length := by
    rw [Rust.length_of_run_mapM_eq_some hrun, List.length_map]
  -- the server's side: the requests' frames are pending on its stream
  have hpServer : Pending memoryStream (Codec.new ([], toServer) serverWindow) toServer
      ((reqs.map wrap).map encodeLengthDelimited).flatten :=
    ⟨delivers_memoryStream [] toServer hserver, by
      rw [List.map_map]
      exact (List.nil_append _).trans hsent⟩
  obtain ⟨codecServer, hserverRun, hserverWritten⟩ :=
    run_handleClientBody (reqs.map wrap) 0 hpServer rfl (Nat.lt_succ_self _) hrun
  -- the client's side: the answers' frames are pending on its stream
  have hpClient : Pending memoryStream (Codec.new ([], toClient) clientWindow) toClient
      (responses.map encodeLengthDelimited).flatten :=
    ⟨delivers_memoryStream [] toClient hclient, by rw [← hanswered]; rfl⟩
  obtain ⟨codecClient, hclientRun, hclientWritten⟩ :=
    exchangeAll_of_pending wrap reqs responses ws _ toClient hlen hvalues hpClient rfl
      (Nat.lt_succ_self _)
  refine ⟨⟨codecServer, ?_, ?_⟩, ⟨codecClient, hclientRun, ?_⟩⟩
  · rw [List.length_map] at hserverRun
    exact hserverRun
  · rw [hserverWritten, hanswered]
    rfl
  · rw [hclientWritten, hsent]
    rfl

/-- A client sends two bytes to a server that answers each with the next; the requests travel in
three parts and the answers in two. -/
theorem client_and_server_answer_two_bytes :
    (∃ codec, handleClient memoryStream ([[1], [5, 1], [7]].length + 1) ([(5 : UInt8), 7].length + 1)
        (fun b => (pure (b + 1) : StateT Unit Option UInt8)) ([], [[1], [5, 1], [7]]) 2 () =
          some (.done (codec, ())) ∧
      codec.stream.1 = [[1, 6, 1], [8]].flatten) ∧
    ∃ codec, exchangeAll id some memoryStream ([[1, 6, 1], [8]].length + 1)
        (Codec.new ([], [[1, 6, 1], [8]]) 3) [(5 : UInt8), 7] = some (.ok [(6 : UInt8), 8], codec) ∧
      codec.stream.1 = [[1], [5, 1], [7]].flatten :=
  client_and_server_answer_as_the_dispatcher id some _ [5, 7] () [6, 8] () [6, 8] rfl rfl
    [[1], [5, 1], [7]] [[1, 6, 1], [8]] 2 3 (by decide) (by decide) (by decide) (by decide)

end Memory

end Client

end Abci

end Tendermint
