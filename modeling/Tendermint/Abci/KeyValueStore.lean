import Tendermint.Abci.Application
import Tendermint.Lib.AList

/-!
# The key/value store application

`application/kvstore.rs`: an ABCI application over a map from strings to strings. The application
is a handle to a driver that owns the map, the height of the last commit and the app hash, and
runs in a thread of its own. Every method sends the driver commands over a channel and waits for
each answer. The driver answers the commands in the order it receives them, so a command acts on
the driver's state at once, and a method is the commands it sends, in turn: the application is an
`Application KeyValueStoreDriver` whose methods run the driver's commands
(`KeyValueStoreDriver.runCommand`). The driver answers every command and the application waits
for every answer, so neither end of a channel is dropped while the other uses it; the channels'
errors are left out.

A transaction `key=value` sets `key` to `value`; a transaction with no `=`, or with more than
one, is both the key and the value it sets (`parseTx_eq_iff`). What the store is for is a map
from keys to the value last written to them (`write`): over any run of requests, the driver holds
the map that the transactions of the finalized blocks write, later writes winning, at the height
that counts the commits (`run_handle_store`, and from a new driver
`key_value_store_holds_the_last_write_of_each_key`), and a query answers what that map holds for
its key (`query_answers_the_last_write_of_its_key`). A commit sets the app hash to the varint of
the number of keys (`commit_sets_the_app_hash_to_the_number_of_keys`). The application panics
only on a request without a value, on a key or a transaction that is not UTF-8, and on a commit
at height `i64::MAX` (`key_value_store_panics_only_on_bad_utf8_or_the_last_height`).
-/

namespace Tendermint

namespace Abci

namespace Kvstore

/-! ## The driver -/

/-- `KeyValueStoreDriver`, without the channel it receives commands on. The store is a
`HashMap<String, String>`. -/
structure KeyValueStoreDriver where
  store : AList fun _ : String => String
  height : Int
  appHash : Bytes

/-- `Command`, indexed by the type of the answer the driver sends on the command's `result_tx`. -/
inductive Command : Type → Type
  | getInfo : Command (Int × Bytes)
  | get (key : String) : Command (Int × Option String)
  | set (key value : String) : Command (Option String)
  | commit : Command Int

namespace KeyValueStoreDriver

/-- `KeyValueStoreDriver::new`: an empty store at height 0, whose app hash is `MAX_VARINT_LENGTH`
zero bytes. -/
def new : KeyValueStoreDriver := ⟨∅, 0, List.replicate maxVarintLength 0⟩

/-- `KeyValueStoreDriver::commit`: the app hash becomes the varint of the number of keys, and the
height goes up by one (`+=` on an `i64`). -/
def commit : StateT KeyValueStoreDriver Option Int := fun self => do
  let appHash := Varint.encode (UInt64.ofNat self.store.entries.length)
  let height ← Rust.checkedAddI64 self.height 1
  pure (height, { self with appHash := appHash, height := height })

/-- A round of the loop of `KeyValueStoreDriver::run`: the driver's answer to one command. -/
def runCommand : Command α → StateT KeyValueStoreDriver Option α
  | .getInfo => fun self => pure ((self.height, self.appHash), self)
  | .get key => fun self => pure ((self.height, self.store.lookup key), self)
  | .set key value => fun self =>
    pure (self.store.lookup key, { self with store := self.store.insert key value })
  | .commit => commit

variable {d : KeyValueStoreDriver}

@[simp] theorem runCommand_getInfo_run : (runCommand .getInfo).run d = some ((d.height, d.appHash), d) :=
  rfl

@[simp] theorem runCommand_get_run (key : String) :
    (runCommand (.get key)).run d = some ((d.height, d.store.lookup key), d) :=
  rfl

@[simp] theorem runCommand_set_run (key value : String) :
    (runCommand (.set key value)).run d =
      some (d.store.lookup key, { d with store := d.store.insert key value }) :=
  rfl

/-- The driver's commit, as the height's checked addition allows it. -/
theorem runCommand_commit_run :
    (runCommand .commit).run d = (Rust.checkedAddI64 d.height 1).map fun height =>
      (height, { d with
        appHash := Varint.encode (UInt64.ofNat d.store.entries.length), height := height }) := by
  show Option.bind _ _ = _
  cases Rust.checkedAddI64 d.height 1 <;> rfl

end KeyValueStoreDriver

/-! ## The application -/

namespace KeyValueStoreApp

open KeyValueStoreDriver

/-- `KeyValueStoreApp::get`: the height of the last commit and the value of a key. -/
def get (key : String) : StateT KeyValueStoreDriver Option (Int × Option String) :=
  runCommand (.get key)

/-- `KeyValueStoreApp::set`: the value the key had before. -/
def set (key value : String) : StateT KeyValueStoreDriver Option (Option String) :=
  runCommand (.set key value)

/-- `info`: the height and the app hash of the last commit. -/
def info (_ : RequestInfo) : StateT KeyValueStoreDriver Option ResponseInfo := do
  let (lastBlockHeight, lastBlockAppHash) ← runCommand .getInfo
  pure
    { data := "kvstore-rs", version := "0.1.0", appVersion := 1,
      lastBlockHeight := lastBlockHeight, lastBlockAppHash := lastBlockAppHash }

/-- `query`: the value of the key that the request's data is; data that is not UTF-8 panics. -/
def query (request : RequestQuery) : StateT KeyValueStoreDriver Option ResponseQuery := do
  let key ← StateT.lift (Rust.fromUtf8 request.data)
  let (height, valueOpt) ← get key
  match valueOpt with
  | some value =>
    pure
      { code := 0, log := "exists", info := "", index := 0, key := request.data,
        value := Rust.intoBytes value, height := height, codespace := "" }
  | none =>
    pure
      { code := 0, log := "does not exist", info := "", index := 0, key := request.data,
        value := [], height := height, codespace := "" }

/-- `check_tx`: every transaction is accepted, for a gas of 1. -/
def checkTx (_ : RequestCheckTx) : StateT KeyValueStoreDriver Option ResponseCheckTx :=
  pure
    { code := 0, data := [], log := "", info := "", gasWanted := 1, gasUsed := 0, events := [],
      codespace := "" }

/-- `commit`: the height to retain is the new height less one (`-` on an `i64`). -/
def commit : StateT KeyValueStoreDriver Option ResponseCommit := do
  let height ← runCommand .commit
  let retainHeight ← StateT.lift (Rust.checkedSubI64 height 1)
  pure { retainHeight := retainHeight }

/-- The key and the value a transaction sets in `finalize_block`: the two pieces when it splits
in two at `=`, and the transaction itself for both otherwise. -/
def parseTx (tx : String) : String × String :=
  match Rust.split tx '=' with
  | [key, value] => (key, value)
  | _ => (tx, tx)

/-- The event `finalize_block` emits for a transaction that sets `key`. -/
def txEvent (key : String) : Pb.Event Pb.V038.EventAttribute :=
  ⟨"app", [⟨"key", key, true⟩, ⟨"index_key", "index is working", true⟩,
    ⟨"noindex_key", "index is working", false⟩]⟩

/-- A round of the loop of `finalize_block`: a transaction that is not UTF-8 panics; another sets
its key to its value and gives its event. -/
def finalizeTx (tx : Bytes) : StateT KeyValueStoreDriver Option (Pb.Event Pb.V038.EventAttribute) := do
  let tx ← StateT.lift (Rust.fromUtf8 tx)
  let (key, value) := parseTx tx
  let _ ← set key value
  pure (txEvent key)

/-- `finalize_block`: the transactions in turn, with their events. -/
def finalizeBlock (request : RequestFinalizeBlock) :
    StateT KeyValueStoreDriver Option ResponseFinalizeBlock := do
  let events ← request.txs.mapM finalizeTx
  pure { events := events }

end KeyValueStoreApp

/-- `impl Application for KeyValueStoreApp`, with the trait's defaults for the methods it does
not define. -/
def KeyValueStoreApp.application : Application KeyValueStoreDriver where
  info := KeyValueStoreApp.info
  query := KeyValueStoreApp.query
  checkTx := KeyValueStoreApp.checkTx
  commit := KeyValueStoreApp.commit
  finalizeBlock := KeyValueStoreApp.finalizeBlock

/-! ## Transactions -/

namespace KeyValueStoreApp

/-- A transaction sets the two sides of its one `=`, or, with no `=` or more than one, itself to
itself. -/
theorem parseTx_eq_iff {tx key value : String} :
    parseTx tx = (key, value) ↔
      (tx = key ++ "=" ++ value ∧ '=' ∉ key.toList ∧ '=' ∉ value.toList) ∨
        (tx.toList.count '=' ≠ 1 ∧ key = tx ∧ value = tx) := by
  have hsep : "=" = String.singleton '=' := by decide
  have hcount : tx.toList.count '=' = 1 ↔ (Rust.split tx '=').length = 2 := by
    rw [Rust.length_split]
    omega
  rw [hsep, ← Rust.split_eq_pair_iff, ne_eq, hcount]
  -- the split has two pieces, or some other number of them
  unfold parseTx
  rcases Rust.split tx '=' with _ | ⟨a, _ | ⟨b, _ | ⟨c, rest⟩⟩⟩ <;> simp
  -- with any other number of pieces, the transaction is both the key and the value
  all_goals exact and_congr eq_comm eq_comm

example : parseTx "height=2" = ("height", "2") ∧ parseTx "a=b=c" = ("a=b=c", "a=b=c") := by decide

/-! ## What each method does -/

open KeyValueStoreDriver

variable {d d' : KeyValueStoreDriver}

/-- `query` answers from the store, and leaves the driver as it was. -/
theorem query_run_eq_some {request : RequestQuery} {response : ResponseQuery}
    (h : (query request).run d = some (response, d')) :
    ∃ key, Rust.fromUtf8 request.data = some key ∧ d' = d ∧ response.code = 0 ∧
      response.key = request.data ∧ response.height = d.height ∧
      response.value = ((d.store.lookup key).map Rust.intoBytes).getD [] ∧
      response.log = if (d.store.lookup key).isSome then "exists" else "does not exist" := by
  unfold query at h
  rcases hkey : Rust.fromUtf8 request.data with _ | key
  · simp [hkey] at h
  · refine ⟨key, rfl, ?_⟩
    rcases hvalue : d.store.lookup key with _ | value <;>
      · simp only [hkey, hvalue, get, StateT.run_bind, StateT.run_lift, Option.bind_eq_bind,
          Option.bind_some, runCommand_get_run, StateT.run_pure, Option.pure_def,
          Option.some.injEq, Prod.mk.injEq] at h
        obtain ⟨rfl, rfl⟩ := h
        simp

theorem query_run_eq_none {request : RequestQuery} :
    (query request).run d = none ↔ Rust.fromUtf8 request.data = none := by
  unfold query
  rcases hkey : Rust.fromUtf8 request.data with _ | key
  · simp
  · rcases hvalue : d.store.lookup key with _ | value <;> simp [get, hvalue]

/-- A transaction of a block sets its key to its value, unless it is not UTF-8. -/
theorem finalizeTx_run (tx : Bytes) :
    (finalizeTx tx).run d = (Rust.fromUtf8 tx).map fun s =>
      (txEvent (parseTx s).1, { d with store := d.store.insert (parseTx s).1 (parseTx s).2 }) := by
  unfold finalizeTx
  cases Rust.fromUtf8 tx <;> rfl

/-- The transactions of a block in turn set each key to its value, when all are UTF-8. The
induction is on the transactions, from any driver. -/
theorem mapM_finalizeTx_run_eq_some {txs : List Bytes} {d d' : KeyValueStoreDriver}
    {events : List (Pb.Event Pb.V038.EventAttribute)}
    (h : (txs.mapM finalizeTx).run d = some (events, d')) :
    ∃ strs, txs.mapM Rust.fromUtf8 = some strs ∧
      events = strs.map (fun s => txEvent (parseTx s).1) ∧
      d' = { d with store := (strs.map parseTx).foldl (fun s w => s.insert w.1 w.2) d.store } := by
  induction txs generalizing d events with
  | nil =>
    simp only [List.mapM_nil, StateT.run_pure, Option.pure_def, Option.some.injEq,
      Prod.mk.injEq] at h
    obtain ⟨rfl, rfl⟩ := h
    exact ⟨[], rfl, rfl, rfl⟩
  | cons tx txs ih =>
    obtain ⟨e, d₁, rest, htx, hrest, rfl⟩ := Rust.run_mapM_cons_eq_some.mp h
    rw [finalizeTx_run, Option.map_eq_some_iff] at htx
    obtain ⟨s, hs, he⟩ := htx
    simp only [Prod.mk.injEq] at he
    obtain ⟨rfl, rfl⟩ := he
    obtain ⟨strs, hstrs, rfl, rfl⟩ := ih hrest
    refine ⟨s :: strs, ?_, rfl, rfl⟩
    simp [hs, hstrs]

/-- `finalize_block` panics exactly on a transaction that is not UTF-8. -/
theorem finalizeBlock_run_eq_none {request : RequestFinalizeBlock} :
    (finalizeBlock request).run d = none ↔ ∃ tx ∈ request.txs, Rust.fromUtf8 tx = none := by
  have hmapM := Rust.run_mapM_eq_none_iff (f := finalizeTx) (P := fun tx => Rust.fromUtf8 tx = none)
    (fun tx d => by rw [finalizeTx_run, Option.map_eq_none_iff]) request.txs d
  unfold finalizeBlock
  rw [← hmapM]
  rcases hr : (request.txs.mapM finalizeTx).run d with _ | ⟨events, d'⟩ <;> simp [hr]

/-- `commit` moves the height up by one, to retain the height it had, and sets the app hash to the
varint of the number of keys; at the last height of an `i64` it panics. -/
theorem commit_run :
    commit.run d = if -2 ^ 63 ≤ d.height ∧ d.height + 1 < 2 ^ 63 then
      some (⟨d.height⟩, { d with
        appHash := Varint.encode (UInt64.ofNat d.store.entries.length), height := d.height + 1 })
    else none := by
  unfold commit
  simp only [StateT.run_bind, runCommand_commit_run, StateT.run_lift, StateT.run_pure,
    Option.bind_eq_bind, Option.pure_def]
  rcases hadd : Rust.checkedAddI64 d.height 1 with _ | height
  · rw [Rust.checkedAddI64_eq_none] at hadd
    rw [if_neg (by omega)]
    rfl
  · obtain ⟨hmem, rfl⟩ := Rust.checkedAddI64_eq_some.mp hadd
    have hsub : Rust.checkedSubI64 (d.height + 1) 1 =
        if -2 ^ 63 ≤ d.height then some d.height else none := by
      unfold Rust.checkedSubI64
      simp only [add_sub_cancel_right]
      split_ifs <;> first | rfl | omega
    simp only [Option.map_some, Option.bind_some, hsub]
    split_ifs <;> first | rfl | omega

/-- `finalize_block` sets the key of each transaction to its value, in turn, when all are UTF-8. -/
theorem finalizeBlock_run_eq_some {request : RequestFinalizeBlock} {response : ResponseFinalizeBlock}
    (h : (finalizeBlock request).run d = some (response, d')) :
    ∃ strs, request.txs.mapM Rust.fromUtf8 = some strs ∧
      response.events = strs.map (fun s => txEvent (parseTx s).1) ∧
      d' = { d with store := (strs.map parseTx).foldl (fun s w => s.insert w.1 w.2) d.store } := by
  unfold finalizeBlock at h
  simp only [StateT.run_bind, Option.bind_eq_bind, Option.bind_eq_some_iff, StateT.run_pure,
    Option.pure_def, Option.some.injEq, Prod.mk.injEq, Prod.exists] at h
  obtain ⟨events, d₁, hevents, rfl, rfl⟩ := h
  exact mapM_finalizeTx_run_eq_some hevents

end KeyValueStoreApp

/-! ## What the store is for

Its clients see a map from keys to the value last written to them, written by the transactions of
the blocks they finalize, and the height of the last commit. -/

open KeyValueStoreApp KeyValueStoreDriver

/-- The writes a request makes, in order: the key and the value of each transaction of a block to
finalize, and none for any other request. -/
def writes (request : Request) : List (String × String) :=
  match request.value with
  | some (.finalizeBlock block) => (block.txs.filterMap Rust.fromUtf8).map parseTx
  | _ => []

/-- Whether a request is a commit. -/
def isCommit (request : Request) : Bool :=
  match request.value with
  | some (.commit _) => true
  | _ => false

/-- The map that writes leave, in turn: the last write of a key wins. -/
def write (ws : List (String × String)) (values : String → Option String) :
    String → Option String :=
  ws.foldl (fun (f : String → Option String) w => Function.update f w.1 (some w.2)) values

theorem write_append (ws₁ ws₂ : List (String × String)) (values : String → Option String) :
    write (ws₁ ++ ws₂) values = write ws₂ (write ws₁ values) :=
  List.foldl_append

/-- Writes to the driver's store are writes to its lookup function. -/
theorem lookup_foldl_insert (ws : List (String × String)) (store : AList fun _ : String => String) :
    (ws.foldl (fun s w => s.insert w.1 w.2) store).lookup = write ws store.lookup :=
  AList.lookup_foldl_insert ws store

/-! ## Requests and runs -/

variable {d d' : KeyValueStoreDriver}

/-- What a request's value does to the driver: a block to finalize writes its transactions, a
commit moves the height up by one within an `i64`, and any other request leaves the driver as it
was. -/
theorem respond_run_store {value : Request.Value} {v : Response.Value}
    (h : (application.respond value).run d = some (v, d')) :
    d'.store = (writes ⟨some value⟩).foldl (fun s w => s.insert w.1 w.2) d.store ∧
      d'.height = d.height + (if isCommit ⟨some value⟩ then 1 else 0) ∧
      (isCommit ⟨some value⟩ = true → d'.height < 2 ^ 63) := by
  cases value <;> obtain ⟨r, hr, -⟩ := Rust.run_map_eq_some.mp h
  case finalizeBlock block =>
    obtain ⟨strs, hstrs, -, rfl⟩ := finalizeBlock_run_eq_some hr
    simp [writes, isCommit, Rust.filterMap_of_mapM_eq_some hstrs, List.foldl_map]
  case commit =>
    change KeyValueStoreApp.commit.run d = _ at hr
    rw [commit_run] at hr
    -- a commit that returns found the next height within an `i64`
    split_ifs at hr with hc
    simp only [Option.some.injEq, Prod.mk.injEq] at hr
    obtain ⟨-, rfl⟩ := hr
    simpa [writes, isCommit] using hc.2
  case query =>
    obtain ⟨-, -, rfl, -⟩ := query_run_eq_some hr
    simp [writes, isCommit]
  -- the other methods answer without a command, or with `get_info`, which changes nothing
  all_goals
    simp only [application, Option.pure_def, StateT.run_pure, Option.some.injEq, Prod.mk.injEq]
      at hr
    obtain ⟨-, rfl⟩ := hr
    simp [writes, isCommit]

/-- A request's value panics on a key or a transaction that is not UTF-8 and on a commit at the
last height of an `i64`, and on nothing else. -/
theorem respond_run_eq_none {value : Request.Value} (hd : -2 ^ 63 ≤ d.height) :
    (application.respond value).run d = none ↔
      (∃ query, value = .query query ∧ Rust.fromUtf8 query.data = none) ∨
      (∃ block, value = .finalizeBlock block ∧ ∃ tx ∈ block.txs, Rust.fromUtf8 tx = none) ∨
      (∃ commit, value = .commit commit ∧ 2 ^ 63 - 1 ≤ d.height) := by
  cases value <;> simp only [Application.respond, Rust.run_map_eq_none]
  case query => simp [application, query_run_eq_none]
  case finalizeBlock => simp [application, finalizeBlock_run_eq_none]
  case commit =>
    change KeyValueStoreApp.commit.run d = none ↔ _
    rw [commit_run]
    split_ifs with hc <;> simp
    · exact fun _ => by omega
    · exact ⟨⟨{}⟩, by omega⟩
  all_goals simp [application, KeyValueStoreApp.info, KeyValueStoreApp.checkTx]

/-- What a request does to the driver, as `respond_run_store` says of its value. -/
theorem handle_run_store {request : Request} {response : Response}
    (h : (application.handle request).run d = some (response, d')) :
    d'.store = (writes request).foldl (fun s w => s.insert w.1 w.2) d.store ∧
      d'.height = d.height + (if isCommit request then 1 else 0) ∧
      (isCommit request = true → d'.height < 2 ^ 63) := by
  obtain ⟨value, v, hv, hr, -⟩ := Application.handle_run_eq_some.mp h
  obtain ⟨request⟩ := request
  cases hv
  exact respond_run_store hr

/-- Over any run of requests, the store holds the writes of the transactions of the finalized
blocks, later writes winning, and the height counts the commits. The induction is on the
requests, from any driver. -/
theorem run_handle_store {requests : List Request} {d d' : KeyValueStoreDriver}
    {responses : List Response} (h : (requests.mapM application.handle).run d = some (responses, d')) :
    d'.store.lookup = write (requests.flatMap writes) d.store.lookup ∧
      d'.height = d.height + requests.countP isCommit ∧
      (d.height < 2 ^ 63 → d'.height < 2 ^ 63) := by
  induction requests generalizing d responses with
  | nil =>
    simp only [List.mapM_nil, StateT.run_pure, Option.pure_def, Option.some.injEq,
      Prod.mk.injEq] at h
    obtain ⟨-, rfl⟩ := h
    exact ⟨rfl, by simp, id⟩
  | cons request requests ih =>
    obtain ⟨response, d₁, rest, hfirst, hrest, -⟩ := Rust.run_mapM_cons_eq_some.mp h
    obtain ⟨hstore₁, hheight₁, hlt₁⟩ := handle_run_store hfirst
    obtain ⟨hstore, hheight, hlt⟩ := ih hrest
    refine ⟨?_, ?_, fun hd => hlt ?_⟩
    · rw [hstore, hstore₁, lookup_foldl_insert, List.flatMap_cons, write_append]
    · rw [hheight, hheight₁, List.countP_cons]
      split <;> omega
    · -- a commit checks the height it moves to; any other request keeps it
      by_cases hc : isCommit request = true
      · exact hlt₁ hc
      · rw [hheight₁, if_neg hc]
        omega

/-! ## The store over runs -/

/-- From a new driver, after any run of requests that the application answers, the store maps
each key to the value of its last write by a transaction of a finalized block, and the height is
the number of commits, within an `i64`. -/
theorem key_value_store_holds_the_last_write_of_each_key {requests : List Request}
    {responses : List Response} {d : KeyValueStoreDriver}
    (h : (requests.mapM application.handle).run new = some (responses, d)) :
    d.store.lookup = write (requests.flatMap writes) (fun _ => none) ∧
      d.height = requests.countP isCommit ∧ d.height < 2 ^ 63 := by
  obtain ⟨hstore, hheight, hlt⟩ := run_handle_store h
  have hempty : new.store.lookup = fun _ => none := funext fun _ => AList.lookup_empty _
  refine ⟨hstore.trans (congrArg _ hempty), ?_, hlt (by decide)⟩
  rw [hheight]
  simp [new]

/-- A block that writes `a` twice, then a commit. -/
theorem key_value_store_keeps_the_later_write_of_a_key :
    ∃ responses d, (([⟨some (.finalizeBlock ⟨[Rust.intoBytes "a=1", Rust.intoBytes "a=2"]⟩)⟩,
        ⟨some (.commit {})⟩] : List Request).mapM application.handle).run new =
          some (responses, d) ∧
      d.store.lookup = write (([⟨some (.finalizeBlock ⟨[Rust.intoBytes "a=1",
        Rust.intoBytes "a=2"]⟩)⟩, ⟨some (.commit {})⟩] : List Request).flatMap writes)
          (fun _ => none) ∧
      d.height = ([⟨some (.finalizeBlock ⟨[Rust.intoBytes "a=1", Rust.intoBytes "a=2"]⟩)⟩,
        ⟨some (.commit {})⟩] : List Request).countP isCommit ∧ d.height < 2 ^ 63 :=
  ⟨_, _, rfl, key_value_store_holds_the_last_write_of_each_key rfl⟩

/-- After any run of requests, a query answers the value of the last write to its key in the run,
or the value the key had before the run, at the height the commits of the run reached. -/
theorem query_answers_the_last_write_of_its_key {requests : List Request} {query : RequestQuery}
    {responses : List Response} {d d' : KeyValueStoreDriver}
    (h : ((requests ++ [Request.mk (some (.query query))]).mapM application.handle).run d =
      some (responses, d')) :
    ∃ key response, Rust.fromUtf8 query.data = some key ∧
      responses.getLast? = some ⟨some (.query response)⟩ ∧
      response.value =
        ((write (requests.flatMap writes) d.store.lookup key).map Rust.intoBytes).getD [] ∧
      response.log = (if (write (requests.flatMap writes) d.store.lookup key).isSome then "exists"
        else "does not exist") ∧
      response.height = d.height + requests.countP isCommit := by
  obtain ⟨rs, d₁, last, hrun, hlast, rfl⟩ := Rust.run_mapM_append_eq_some.mp h
  obtain ⟨hstore, hheight, -⟩ := run_handle_store hrun
  -- the run ends with the query, answered from the store the requests before it left
  obtain ⟨response, d₂, rest, hq, hnil, rfl⟩ := Rust.run_mapM_cons_eq_some.mp hlast
  simp only [List.mapM_nil, StateT.run_pure, Option.pure_def, Option.some.injEq,
    Prod.mk.injEq] at hnil
  obtain ⟨rfl, -⟩ := hnil
  obtain ⟨value, v, hv, hr, rfl⟩ := Application.handle_run_eq_some.mp hq
  cases hv
  obtain ⟨r, hr', rfl⟩ := Rust.run_map_eq_some.mp hr
  obtain ⟨key, hkey, -, -, -, hh, hval, hlog⟩ := query_run_eq_some hr'
  have hlookup := congrFun hstore key
  refine ⟨key, r, hkey, by simp, ?_, ?_, ?_⟩
  · rw [hval, hlookup]
  · rw [hlog, hlookup]
  · rw [hh, hheight]

/-- A block that writes `a` twice and `b` once, then a query for `a`. -/
theorem query_answers_the_later_write_of_a_key :
    ∃ responses d', ((([⟨some (.finalizeBlock ⟨[Rust.intoBytes "a=1", Rust.intoBytes "b",
        Rust.intoBytes "a=2"]⟩)⟩] : List Request) ++
          [Request.mk (some (.query ⟨Rust.intoBytes "a"⟩))]).mapM
        application.handle).run new = some (responses, d') ∧
      ∃ key response, Rust.fromUtf8 (⟨Rust.intoBytes "a"⟩ : RequestQuery).data = some key ∧
        responses.getLast? = some ⟨some (.query response)⟩ ∧
        response.value = ((write (([⟨some (.finalizeBlock ⟨[Rust.intoBytes "a=1",
          Rust.intoBytes "b", Rust.intoBytes "a=2"]⟩)⟩] : List Request).flatMap writes)
            new.store.lookup key).map Rust.intoBytes).getD [] ∧
        response.log = (if (write (([⟨some (.finalizeBlock ⟨[Rust.intoBytes "a=1",
          Rust.intoBytes "b", Rust.intoBytes "a=2"]⟩)⟩] : List Request).flatMap writes)
            new.store.lookup key).isSome then "exists" else "does not exist") ∧
        response.height = new.height + ([⟨some (.finalizeBlock ⟨[Rust.intoBytes "a=1",
          Rust.intoBytes "b", Rust.intoBytes "a=2"]⟩)⟩] : List Request).countP isCommit :=
  ⟨_, _, rfl, query_answers_the_last_write_of_its_key rfl⟩

/-- The application panics on a request without a value, on a key or a transaction that is not
UTF-8, and on a commit at the last height of an `i64`, and on no other request. -/
theorem key_value_store_panics_only_on_bad_utf8_or_the_last_height {request : Request}
    (hd : -2 ^ 63 ≤ d.height) :
    (application.handle request).run d = none ↔
      request.value = none ∨
      (∃ query, request.value = some (.query query) ∧ Rust.fromUtf8 query.data = none) ∨
      (∃ block, request.value = some (.finalizeBlock block) ∧
        ∃ tx ∈ block.txs, Rust.fromUtf8 tx = none) ∨
      (∃ commit, request.value = some (.commit commit) ∧ 2 ^ 63 - 1 ≤ d.height) := by
  rw [Application.handle_run_eq_none]
  obtain ⟨_ | value⟩ := request
  · simp
  · simp only [Option.some.injEq, exists_eq_left', reduceCtorEq, false_or,
      respond_run_eq_none hd]

/-- A query whose key is not UTF-8 panics. -/
theorem key_value_store_panics_on_a_key_that_is_not_utf8 :
    -2 ^ 63 ≤ new.height ∧
      ((application.handle ⟨some (.query ⟨[255]⟩)⟩).run new = none ↔
        (⟨some (.query ⟨[255]⟩)⟩ : Request).value = none ∨
        (∃ query, (⟨some (.query ⟨[255]⟩)⟩ : Request).value = some (.query query) ∧
          Rust.fromUtf8 query.data = none) ∨
        (∃ block, (⟨some (.query ⟨[255]⟩)⟩ : Request).value = some (.finalizeBlock block) ∧
          ∃ tx ∈ block.txs, Rust.fromUtf8 tx = none) ∨
        (∃ commit, (⟨some (.query ⟨[255]⟩)⟩ : Request).value = some (.commit commit) ∧
          2 ^ 63 - 1 ≤ new.height)) :=
  ⟨by decide, key_value_store_panics_only_on_bad_utf8_or_the_last_height (by decide)⟩

end Kvstore

end Abci

end Tendermint
