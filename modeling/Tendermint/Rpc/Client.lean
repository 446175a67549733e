import Tendermint.Lib.Loop
import Tendermint.Lib.Rust
import Tendermint.Types.Validator

/-!
# Paging through the validators

`Client::validators` of `rpc/src/client.rs`, with the paging options of `rpc/src/paging.rs` and
the request and response of `rpc/src/endpoint/validators.rs`. With `Paging::All` the client asks
for pages 1, 2, … of `DEFAULT_VALIDATORS_PER_PAGE` validators and stops when the number it has
collected, cast to an `i32`, is the total the last response gave.

The transport is a parameter `perform`: whatever answers a request. The loop runs on fuel
(`Loop.run`). Two results:

* `validators_all_returns_the_pages_in_order`, for every server: what the loop returns is what
  pages `1` to `k + 1` held, in order (`pages`), and an error is the error of a page read after
  all the pages before it;
* `validators_all_reads_every_validator`, for a server that pages one list as the endpoint
  documents (`pager`): the loop returns that list after exactly `pagesNeeded` requests.
-/

namespace Tendermint
namespace Rpc

/-- `PageNumber`: a `usize`. -/
structure PageNumber where
  value : Nat
deriving DecidableEq, Repr

/-- `PerPage`: a `u8`. -/
structure PerPage where
  value : UInt8
deriving DecidableEq, Repr

/-- `Paging`: how many pages `Client::validators` asks for. -/
inductive Paging
  | default
  | all
  | specific (pageNumber : PageNumber) (perPage : PerPage)
deriving DecidableEq, Repr

/-- `DEFAULT_VALIDATORS_PER_PAGE`. -/
def defaultValidatorsPerPage : UInt8 := 30

/-- `validators::Request`. -/
structure ValidatorsRequest where
  height : Option Height
  page : Option PageNumber
  perPage : Option PerPage
deriving DecidableEq

/-- `validators::Response`. -/
structure ValidatorsResponse where
  blockHeight : Height
  validators : List Validator.Info
  total : Int
deriving DecidableEq

section Client

variable {ε : Type} (perform : ValidatorsRequest → Except ε ValidatorsResponse)

/-- The request of the `Paging::All` loop for page `pageNum`. -/
def pageRequest (height : Height) (pageNum : Nat) : ValidatorsRequest :=
  ⟨some height, some ⟨pageNum⟩, some ⟨defaultValidatorsPerPage⟩⟩

/-- An iteration of the `Paging::All` loop, from the page to ask for and the validators so far. -/
def validatorsAllBody (height : Height) (_ : Nat) (state : Nat × List Validator.Info) :
    Option (Loop.Step (Nat × List Validator.Info) (Except ε ValidatorsResponse)) :=
  match perform (pageRequest height state.1) with
  | .error e => some (.done (.error e))
  | .ok response =>
    let validators := state.2 ++ response.validators
    if Rust.asI32 validators.length = response.total then
      some (.done (.ok ⟨response.blockHeight, validators, response.total⟩))
    -- `page_num += 1` on a `usize`
    else if state.1 + 1 < 2 ^ 64 then some (.next (state.1 + 1, validators))
    else none

/-- `Client::validators`, its `Paging::All` loop run for at most `fuel` iterations. -/
def validators (height : Height) (paging : Paging) (fuel : Nat) :
    Option (Loop.Step (Nat × List Validator.Info) (Except ε ValidatorsResponse)) :=
  match paging with
  | .default => some (.done (perform ⟨some height, none, none⟩))
  | .specific pageNumber perPage =>
    some (.done (perform ⟨some height, some pageNumber, some perPage⟩))
  | .all => Loop.run (validatorsAllBody perform height) fuel 0 (1, [])

/-- What pages `1` to `k` hold, in order, or the error of the first of them that failed. -/
def pages (height : Height) : Nat → Except ε (List Validator.Info)
  | 0 => .ok []
  | k + 1 => do
    let validators ← pages height k
    let response ← perform (pageRequest height (k + 1))
    pure (validators ++ response.validators)

variable {perform} {height : Height}

/-- What an iteration can do: end on an error, end on the total, or ask for the next page. -/
theorem validatorsAllBody_cases {n : Nat} {state : Nat × List Validator.Info}
    {r : Option (Loop.Step (Nat × List Validator.Info) (Except ε ValidatorsResponse))}
    (h : validatorsAllBody perform height n state = r) :
    (∃ e, perform (pageRequest height state.1) = .error e ∧ r = some (.done (.error e))) ∨
    ∃ response, perform (pageRequest height state.1) = .ok response ∧
      ((Rust.asI32 (state.2 ++ response.validators).length = response.total ∧
        r = some (.done (.ok ⟨response.blockHeight, state.2 ++ response.validators,
          response.total⟩))) ∨
      (Rust.asI32 (state.2 ++ response.validators).length ≠ response.total ∧
        (state.1 + 1 < 2 ^ 64 ∧ r = some (.next (state.1 + 1, state.2 ++ response.validators)) ∨
         2 ^ 64 ≤ state.1 + 1 ∧ r = none))) := by
  subst h
  unfold validatorsAllBody
  split
  · next e he => exact .inl ⟨e, he, rfl⟩
  · next response hr =>
    refine .inr ⟨response, hr, ?_⟩
    by_cases htotal : Rust.asI32 (state.2 ++ response.validators).length = response.total
    · exact .inl ⟨htotal, by rw [if_pos htotal]⟩
    · by_cases hpage : state.1 + 1 < 2 ^ 64
      · exact .inr ⟨htotal, .inl ⟨hpage, by rw [if_neg htotal, if_pos hpage]⟩⟩
      · exact .inr ⟨htotal, .inr ⟨Nat.le_of_not_lt hpage, by rw [if_neg htotal, if_neg hpage]⟩⟩

/-- Reading one more page appends its validators to those of the pages before it. -/
theorem pages_succ_eq_ok {k : Nat} {validators : List Validator.Info}
    (hk : pages perform height k = .ok validators) {response : ValidatorsResponse}
    (hr : perform (pageRequest height (k + 1)) = .ok response) :
    pages perform height (k + 1) = .ok (validators ++ response.validators) := by
  simp [pages, hk, hr]

/-- The loop's invariant: iteration `n` asks for page `n + 1` and holds what pages `1` to `n`
held. -/
def ReadPages (perform : ValidatorsRequest → Except ε ValidatorsResponse) (height : Height)
    (n : Nat) (state : Nat × List Validator.Info) : Prop :=
  state.1 = n + 1 ∧ pages perform height n = .ok state.2

/-- An iteration that asks for the next page keeps `ReadPages`: its state holds the pages read so
far. -/
theorem readPages_step {n : Nat} {state state' : Nat × List Validator.Info}
    (hinv : ReadPages perform height n state)
    (hb : validatorsAllBody perform height n state = some (.next state')) :
    ReadPages perform height (n + 1) state' := by
  obtain ⟨hpage, hpages⟩ := hinv
  rcases validatorsAllBody_cases hb with
    ⟨e, -, he⟩ | ⟨response, hr, (⟨-, hd⟩ | ⟨-, (⟨-, hn⟩ | ⟨-, hn⟩)⟩)⟩
  · cases he
  · cases hd
  · cases hn
    rw [hpage] at hr
    exact ⟨by rw [hpage], pages_succ_eq_ok hpages hr⟩
  · cases hn

/-- Every state a `Paging::All` run reaches satisfies the invariant. -/
theorem readPages_of_reaches {m : Nat} {state : Nat × List Validator.Info}
    (h : Loop.Reaches (validatorsAllBody perform height) 0 (1, []) m state) :
    ReadPages perform height m state :=
  Loop.Reaches.inv _ (fun _ _ _ => readPages_step) h ⟨rfl, rfl⟩

/-- A run that returned returned from an iteration that kept the invariant. -/
theorem validators_all_eq_done {fuel : Nat} {result : Except ε ValidatorsResponse}
    (h : validators perform height .all fuel = some (.done result)) :
    ∃ m state, ReadPages perform height m state ∧
      validatorsAllBody perform height m state = some (.done result) := by
  obtain ⟨m, state, hreach, hdone⟩ := Loop.run_eq_done h
  exact ⟨m, state, readPages_of_reaches hreach, hdone⟩

/-- A run that returns `Ok` returns what the pages read held, in order, with the height and total of
the last page. -/
theorem validators_all_returns_the_pages_in_order {fuel : Nat} {response : ValidatorsResponse}
    (h : validators perform height .all fuel = some (.done (.ok response))) :
    ∃ k page, perform (pageRequest height (k + 1)) = .ok page ∧
      pages perform height (k + 1) = .ok response.validators ∧
      response = ⟨page.blockHeight, response.validators, page.total⟩ ∧
      Rust.asI32 response.validators.length = page.total := by
  obtain ⟨m, state, ⟨hpage, hpages⟩, hdone⟩ := validators_all_eq_done h
  rcases validatorsAllBody_cases hdone with
    ⟨e, -, hd⟩ | ⟨page, hr, (⟨htotal, hd⟩ | ⟨-, (⟨-, hn⟩ | ⟨-, hn⟩)⟩)⟩
  · cases hd
  · -- the last page brought the count to the total
    cases hd
    rw [hpage] at hr
    exact ⟨m, page, hr, pages_succ_eq_ok hpages hr, rfl, htotal⟩
  · cases hn
  · cases hn

/-! ## A server that pages one list -/

/-- A server that holds the validators `vs` at `blockHeight` and pages them as the `/validators`
endpoint documents: page `n`, from 1, holds the next `perPage` of them (30 by default, as the
first page by default), and the total is their number. -/
def pager (blockHeight : Height) (vs : List Validator.Info) (request : ValidatorsRequest) :
    Except ε ValidatorsResponse :=
  let page := (request.page.map PageNumber.value).getD 1
  let perPage := (request.perPage.map fun p => p.value.toNat).getD 30
  .ok ⟨blockHeight, (vs.drop ((page - 1) * perPage)).take perPage, vs.length⟩

/-- The requests `Paging::All` needs for `n` validators: one per 30 of them, and one if there are
none. -/
def pagesNeeded (n : Nat) : Nat :=
  max 1 ((n + 29) / 30)

section Pager

variable {blockHeight : Height} {vs : List Validator.Info}

/-- The paging server answers page `k + 1` with the `k`-th slice of 30 validators. -/
theorem pager_pageRequest (k : Nat) :
    pager (ε := ε) blockHeight vs (pageRequest height (k + 1)) =
      .ok ⟨blockHeight, (vs.drop (k * 30)).take 30, vs.length⟩ := by
  simp [pager, pageRequest, defaultValidatorsPerPage]

/-- An iteration against `pager`: it ends once the pages read cover the list. -/
theorem validatorsAllBody_pager (hlen : vs.length < 2 ^ 31) (n k : Nat) :
    validatorsAllBody (ε := ε) (pager blockHeight vs) height n (k + 1, vs.take (k * 30)) =
      if vs.length ≤ (k + 1) * 30 then some (.done (.ok ⟨blockHeight, vs, vs.length⟩))
      else some (.next (k + 2, vs.take ((k + 1) * 30))) := by
  have htake : vs.take (k * 30) ++ (vs.drop (k * 30)).take 30 = vs.take ((k + 1) * 30) := by
    rw [← List.take_add, Nat.succ_mul]
  have hcount : Rust.asI32 (vs.take ((k + 1) * 30)).length = vs.length ↔
      vs.length ≤ (k + 1) * 30 := by
    rw [List.length_take, Rust.asI32_of_lt (by omega)]
    omega
  simp only [validatorsAllBody, pager_pageRequest, htake, hcount]
  split_ifs with hcover hpage
  · rw [List.take_of_length_le hcover]
  · rfl
  · omega

/-- A run against `pager` from the state after `k` pages: it returns the list once the pages read
cover it, and otherwise spends its fuel on the next pages. -/
theorem run_pager (hlen : vs.length < 2 ^ 31) (fuel : Nat) :
    ∀ n k, (k = 0 ∨ k * 30 < vs.length) →
      Loop.run (validatorsAllBody (ε := ε) (pager blockHeight vs) height) fuel n
          (k + 1, vs.take (k * 30)) =
        if 0 < fuel ∧ vs.length ≤ (k + fuel) * 30 then
          some (.done (.ok ⟨blockHeight, vs, vs.length⟩))
        else some (.next (k + fuel + 1, vs.take ((k + fuel) * 30))) := by
  induction fuel with
  | zero => intro n k _; simp
  | succ fuel ih =>
    intro n k hk
    have hb : validatorsAllBody (ε := ε) (pager blockHeight vs) height n
        (k + 1, vs.take (k * 30)) = _ := validatorsAllBody_pager hlen n k
    by_cases hcover : vs.length ≤ (k + 1) * 30
    · rw [if_pos hcover] at hb
      rw [Loop.run_succ_of_done hb, if_pos ⟨by omega, by omega⟩]
    · rw [if_neg hcover] at hb
      -- the next state is the one after `k + 1` pages
      rw [Loop.run_succ_of_next hb, ih (n + 1) (k + 1) (.inr (by omega)),
        show k + 1 + fuel = k + (fuel + 1) by omega]
      exact if_congr (by omega) rfl rfl

/-- Against the paging server, a run reads every validator in as many requests as there are pages of
30, and spends its fuel before that. -/
theorem validators_all_reads_every_validator (hlen : vs.length < 2 ^ 31) (fuel : Nat) :
    validators (ε := ε) (pager blockHeight vs) height .all fuel =
      if pagesNeeded vs.length ≤ fuel then some (.done (.ok ⟨blockHeight, vs, vs.length⟩))
      else some (.next (fuel + 1, vs.take (fuel * 30))) := by
  have hrun : Loop.run (validatorsAllBody (ε := ε) (pager blockHeight vs) height) fuel 0 (1, []) =
      _ := run_pager hlen fuel 0 0 (.inl rfl)
  simp only [Nat.zero_add] at hrun
  rw [validators, hrun]
  exact if_congr (by unfold pagesNeeded; omega) rfl rfl

/-- An empty set still takes a request. -/
theorem validators_all_reads_an_empty_set_in_one_request :
    ([] : List Validator.Info).length < 2 ^ 31 ∧
      validators (ε := Unit) (pager Height.default []) Height.default .all 0 =
        some (.next (1, [])) ∧
      validators (ε := Unit) (pager Height.default []) Height.default .all 1 =
        some (.done (.ok ⟨Height.default, [], 0⟩)) :=
  ⟨by decide, validators_all_reads_every_validator (by decide) 0,
    validators_all_reads_every_validator (by decide) 1⟩

/-- A validator of power one. -/
def onePowerValidator : Validator.Info :=
  ⟨⟨List.Vector.replicate 20 0⟩, .ed25519 (List.Vector.replicate 32 0), .fromU8 1, none, 0⟩

/-- A server that pages 31 validators: the run ends on the second page, and the two pages read
concatenate to the whole list. -/
theorem validators_all_returns_two_pages_in_order :
    ∃ k page, pager (ε := Unit) Height.default (List.replicate 31 onePowerValidator)
        (pageRequest Height.default (k + 1)) = .ok page ∧
      pages (pager (ε := Unit) Height.default (List.replicate 31 onePowerValidator))
        Height.default (k + 1) = .ok (List.replicate 31 onePowerValidator) ∧
      (⟨Height.default, List.replicate 31 onePowerValidator,
        (List.replicate 31 onePowerValidator).length⟩ : ValidatorsResponse) =
        ⟨page.blockHeight, List.replicate 31 onePowerValidator, page.total⟩ ∧
      Rust.asI32 (List.replicate 31 onePowerValidator).length = page.total := by
  have hlen : (List.replicate 31 onePowerValidator).length < 2 ^ 31 := by simp
  have hrun : Loop.run (validatorsAllBody (ε := Unit)
      (pager Height.default (List.replicate 31 onePowerValidator)) Height.default) 2 0
      (0 + 1, (List.replicate 31 onePowerValidator).take (0 * 30)) = _ :=
    run_pager hlen 2 0 0 (.inl rfl)
  simp only [Nat.zero_add, Nat.zero_mul, List.take_zero] at hrun
  have h : validators (ε := Unit) (pager Height.default (List.replicate 31 onePowerValidator))
      Height.default .all 2 = some (.done (.ok ⟨Height.default,
        List.replicate 31 onePowerValidator, (List.replicate 31 onePowerValidator).length⟩)) := by
    rw [validators, hrun, if_pos (by simp)]
  exact validators_all_returns_the_pages_in_order h

end Pager

end Client

end Rpc
end Tendermint
