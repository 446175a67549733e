import Tendermint.Lib.Peg
import Tendermint.Lib.Rust

/-!
# Queries

`query.rs`: a query of the event subscription system (an event type and conditions joined by
`AND`), how it is printed (`Display`), and the PEG grammar `query_parser` that `Query::from_str`
parses with.

`f64`, `time::Date` and `time::OffsetDateTime` are left abstract: the model takes their types and
what the module does with them, how each is printed and how the text the grammar matched for it
is parsed, as a `Formats`.

The printer puts a string in single quotes and escapes its quotes and backslashes with a
backslash, while the grammar's string is a quote, any characters but a quote, and a quote, with no
escapes. So no query that parses has a quote in a string (`Yields` along the grammar), and a
string without quotes comes back with its backslashes doubled.
-/

namespace Tendermint

namespace Rpc

/-- `EventType`. -/
inductive EventType
  | newBlock
  | tx
deriving DecidableEq, Repr

namespace EventType

/-- `Display for EventType`. -/
def toString : EventType → String
  | newBlock => "NewBlock"
  | tx => "Tx"

/-- `EventType::from_str`, with the unrecognised event type as `none`. -/
def fromStr : String → Option EventType
  | "NewBlock" => some newBlock
  | "Tx" => some tx
  | _ => none

end EventType

/-- `Operand`, over the types of `f64` (`F`), `time::Date` (`D`) and `time::OffsetDateTime`
(`T`). -/
inductive Operand (F D T : Type)
  | string (s : String)
  | signed (i : Int64)
  | unsigned (u : UInt64)
  | float (h : F)
  | date (d : D)
  | dateTime (dt : T)
deriving DecidableEq

/-- `Operation`. -/
inductive Operation (F D T : Type)
  | eq (op : Operand F D T)
  | lt (op : Operand F D T)
  | lte (op : Operand F D T)
  | gt (op : Operand F D T)
  | gte (op : Operand F D T)
  | contains (op : String)
  | «exists»
deriving DecidableEq

/-- `Condition`. -/
structure Condition (F D T : Type) where
  key : String
  operation : Operation F D T
deriving DecidableEq

/-- `Query`. -/
structure Query (F D T : Type) where
  eventType : Option EventType
  conditions : List (Condition F D T)
deriving DecidableEq

/-- What the query module does with `f64`, `time::Date` and `time::OffsetDateTime`: how each is
printed, and how the text the grammar matched for it is parsed. -/
structure Formats (F D T : Type) where
  /-- `{}` of an `f64`. -/
  displayFloat : F → String
  /-- `f64::from_str`. -/
  parseFloat : String → Option F
  /-- `fmt_date`. -/
  fmtDate : D → String
  /-- `Date::parse` with the format `[year]-[month]-[day]`. -/
  parseDate : String → Option D
  /-- `timestamp::fmt_as_rfc3339_nanos`. -/
  fmtAsRfc3339Nanos : T → String
  /-- `OffsetDateTime::parse` with `Rfc3339`, then `to_offset(UTC)`. -/
  parseDateTime : String → Option T

variable {F D T : Type}

namespace Condition

/-- `Condition::new`. -/
def new (key : String) (operation : Operation F D T) : Condition F D T := ⟨key, operation⟩

/-- `Condition::eq`. -/
def eq (key : String) (op : Operand F D T) : Condition F D T := new key (.eq op)

/-- `Condition::lt`. -/
def lt (key : String) (op : Operand F D T) : Condition F D T := new key (.lt op)

/-- `Condition::lte`. -/
def lte (key : String) (op : Operand F D T) : Condition F D T := new key (.lte op)

/-- `Condition::gt`. -/
def gt (key : String) (op : Operand F D T) : Condition F D T := new key (.gt op)

/-- `Condition::gte`. -/
def gte (key : String) (op : Operand F D T) : Condition F D T := new key (.gte op)

/-- `Condition::contains`. -/
def contains (key : String) (op : String) : Condition F D T := new key (.contains op)

/-- `Condition::exists`. -/
def «exists» (key : String) : Condition F D T := new key .exists

end Condition

namespace Query

/-- `Query::eq`. -/
def eq (key : String) (value : Operand F D T) : Query F D T := ⟨none, [.eq key value]⟩

/-- `Query::contains`. -/
def contains (key value : String) : Query F D T := ⟨none, [.contains key value]⟩

end Query

/-! ## Printing -/

/-- `escape`: a backslash before each backslash and single quote, and the result in single
quotes. -/
def escape (s : String) : String :=
  let result := s.toList.foldl (fun result ch =>
    (if ch == '\\' || ch == '\'' then result.push '\\' else result).push ch) ""
  "'" ++ result ++ "'"

/-- `Display for Operand`. -/
def Operand.toString (fmt : Formats F D T) : Operand F D T → String
  | string s => escape s
  | signed i => i.toInt.repr
  | unsigned u => u.toNat.repr
  | float h => fmt.displayFloat h
  | date d => "DATE " ++ fmt.fmtDate d
  | dateTime dt => "TIME " ++ fmt.fmtAsRfc3339Nanos dt

/-- `Display for Condition`. -/
def Condition.toString (fmt : Formats F D T) (c : Condition F D T) : String :=
  match c.operation with
  | .eq op => c.key ++ " = " ++ op.toString fmt
  | .lt op => c.key ++ " < " ++ op.toString fmt
  | .lte op => c.key ++ " <= " ++ op.toString fmt
  | .gt op => c.key ++ " > " ++ op.toString fmt
  | .gte op => c.key ++ " >= " ++ op.toString fmt
  | .contains op => c.key ++ " CONTAINS " ++ escape op
  | .exists => c.key ++ " EXISTS"

/-- `join`: the items, with the separator between each two. -/
def join (separator : String) : List String → String
  | [] => ""
  | first :: rest => rest.foldl (fun s item => s ++ separator ++ item) first

/-- `Display for Query`. -/
def Query.toString (fmt : Formats F D T) (q : Query F D T) : String :=
  let eventType := match q.eventType with
    | some t => "tm.event = '" ++ t.toString ++ "'" ++ (if q.conditions.isEmpty then "" else " AND ")
    | none => ""
  eventType ++ join " AND " (q.conditions.map (Condition.toString fmt))

/-! ## The grammar -/

/-- `Term`. -/
inductive Term (F D T : Type)
  | eventType (t : EventType)
  | condition (c : Condition F D T)

namespace QueryParser

open Peg

/-- `_`: some or no spaces. -/
def ws : Peg Char Unit := do
  let _ ← span (· == ' ')
  pure ()

/-- `__`: at least one space. -/
def ws1 : Peg Char Unit := do
  let _ ← span1 (· == ' ')
  pure ()

/-- `string`: a single quote, any characters but a single quote, and a single quote. -/
def string : Peg Char String := do
  lit ['\'']
  let s ← span (· != '\'')
  lit ['\'']
  pure (String.ofList s)

/-- A character between `lo` and `hi`. -/
def inRange (lo hi c : Char) : Bool := lo ≤ c && c ≤ hi

/-- `unsigned`. -/
def unsigned : Peg Char UInt64 := guardMap (span1 Char.isDigit) Rust.u64FromStr

/-- `signed`: negative numbers only. -/
def signed : Peg Char Int64 :=
  guardMap (slice (do
    lit ['-']
    let _ ← sat (inRange '1' '9')
    span Char.isDigit)) Rust.i64FromStr

/-- `year`: four digits. -/
def year : Peg Char (List Char) := slice (count (sat Char.isDigit) 4)

/-- `month`. -/
def month : Peg Char (List Char) := slice (do
  let _ ← sat (inRange '0' '1')
  sat Char.isDigit)

/-- `day`. -/
def day : Peg Char (List Char) := slice (do
  let _ ← sat (inRange '0' '3')
  sat Char.isDigit)

/-- `date`. -/
def date : Peg Char (List Char) := slice (do
  let _ ← year
  lit ['-']
  let _ ← month
  lit ['-']
  day)

/-- `hour`. -/
def hour : Peg Char (List Char) := slice (do
  let _ ← sat (inRange '0' '2')
  sat Char.isDigit)

/-- `min_sec`. -/
def minSec : Peg Char (List Char) := slice (do
  let _ ← sat (inRange '0' '5')
  sat Char.isDigit)

/-- `nanosec`. -/
def nanosec : Peg Char (List Char) := slice (do
  lit ['.']
  span1 Char.isDigit)

/-- `time`. -/
def time : Peg Char (List Char) := slice (do
  let _ ← hour
  lit [':']
  let _ ← minSec
  lit [':']
  let _ ← minSec
  let _ ← opt nanosec
  lit ['Z'])

/-- `datetime`. -/
def datetime : Peg Char (List Char) := slice (do
  let _ ← date
  lit ['T']
  time)

/-- `float`. -/
def float (fmt : Formats F D T) : Peg Char F :=
  guardMap (slice (do
    let _ ← opt (lit ['-'])
    let _ ← span1 Char.isDigit
    lit ['.']
    span1 Char.isDigit)) fun s => fmt.parseFloat (String.ofList s)

/-- `string_op`. -/
def stringOp : Peg Char (Operand F D T) := .string <$> string

/-- `unsigned_op`. -/
def unsignedOp : Peg Char (Operand F D T) := .unsigned <$> unsigned

/-- `signed_op`. -/
def signedOp : Peg Char (Operand F D T) := .signed <$> signed

/-- `datetime_op`. -/
def datetimeOp (fmt : Formats F D T) : Peg Char (Operand F D T) :=
  guardMap (do
    lit "TIME".toList
    ws1
    datetime) fun dt => (fmt.parseDateTime (String.ofList dt)).map .dateTime

/-- `date_op`. -/
def dateOp (fmt : Formats F D T) : Peg Char (Operand F D T) :=
  guardMap (do
    lit "DATE".toList
    ws1
    date) fun dt => (fmt.parseDate (String.ofList dt)).map .date

/-- `float_op`. -/
def floatOp (fmt : Formats F D T) : Peg Char (Operand F D T) := .float <$> float fmt

/-- The characters of a tag after its first. -/
def tagChar (c : Char) : Bool := c.isAlphanum || c == '_' || c == '.'

/-- A key that the rule `tag` reads: a letter, then letters, digits, underscores and dots. -/
def isTag (key : String) : Bool :=
  match key.toList with
  | c :: cs => c.isAlpha && cs.all tagChar
  | [] => false

/-- `tag`. -/
def tag : Peg Char String := do
  let c ← sat Char.isAlpha
  let cs ← span tagChar
  pure (String.ofList (c :: cs))

/-- `operand`: the first alternative that reads the input. -/
def operand (fmt : Formats F D T) : Peg Char (Operand F D T) :=
  datetimeOp fmt <|> dateOp fmt <|> stringOp <|> floatOp fmt <|> signedOp <|> unsignedOp

/-- The rules `eq`, `lte`, `lt`, `gte` and `gt`: a tag, the symbol of the comparison between
optional spaces, and an operand. -/
def comparison (fmt : Formats F D T) (symbol : String)
    (mk : String → Operand F D T → Condition F D T) : Peg Char (Condition F D T) := do
  let t ← tag
  ws
  lit symbol.toList
  ws
  let op ← operand fmt
  pure (mk t op)

/-- `eq`. -/
def eq (fmt : Formats F D T) : Peg Char (Condition F D T) := comparison fmt "=" Condition.eq

/-- `lte`. -/
def lte (fmt : Formats F D T) : Peg Char (Condition F D T) := comparison fmt "<=" Condition.lte

/-- `lt`. -/
def lt (fmt : Formats F D T) : Peg Char (Condition F D T) := comparison fmt "<" Condition.lt

/-- `gte`. -/
def gte (fmt : Formats F D T) : Peg Char (Condition F D T) := comparison fmt ">=" Condition.gte

/-- `gt`. -/
def gt (fmt : Formats F D T) : Peg Char (Condition F D T) := comparison fmt ">" Condition.gt

/-- `contains`. -/
def contains : Peg Char (Condition F D T) := do
  let t ← tag
  ws1
  lit "CONTAINS".toList
  ws1
  let op ← string
  pure (Condition.contains t op)

/-- `exists`. -/
def «exists» : Peg Char (Condition F D T) := do
  let t ← tag
  ws1
  lit "EXISTS".toList
  pure (Condition.exists t)

/-- `event_type`: `EventType::from_str(et).unwrap()` cannot fail on the two names the rule
reads. -/
def eventType : Peg Char (Term F D T) :=
  guardMap (do
    lit "tm.event".toList
    ws
    lit ['=']
    ws
    lit ['\'']
    let et ← slice (lit "NewBlock".toList <|> lit "Tx".toList)
    lit ['\'']
    pure et) fun et => (EventType.fromStr (String.ofList et)).map .eventType

/-- `condition`. -/
def condition (fmt : Formats F D T) : Peg Char (Term F D T) :=
  .condition <$> (eq fmt <|> lte fmt <|> lt fmt <|> gte fmt <|> gt fmt <|> contains <|> «exists»)

/-- `term`. -/
def term (fmt : Formats F D T) : Peg Char (Term F D T) := eventType <|> condition fmt

/-- The separator of `query`'s terms: `AND` between spaces. -/
def andSep : Peg Char Unit := do
  ws1
  lit "AND".toList
  ws1

/-- `query`: terms separated by `AND`. -/
def query (fmt : Formats F D T) : Peg Char (List (Term F D T)) := sepBy (term fmt) andSep

end QueryParser

/-- `separate_terms`. -/
def separateTerms (terms : List (Term F D T)) : List EventType × List (Condition F D T) :=
  terms.foldl (fun v t =>
    match t with
    | .eventType et => (v.1 ++ [et], v.2)
    | .condition c => (v.1, v.2 ++ [c])) ([], [])

/-- The errors of `Query::from_str`, all `Error::invalid_params`. The report of the PEG, which
follows the words `failed to parse query` in the source's message, is left out. -/
inductive Error
  | invalidParams (message : String)
deriving DecidableEq, Repr

/-- `Query::from_str`. -/
def Query.fromStr (fmt : Formats F D T) (s : String) : Except Error (Query F D T) := do
  let terms ← match Peg.parse (QueryParser.query fmt) s.toList with
    | some terms => pure terms
    | none => throw (.invalidParams "failed to parse query")
  let (eventTypes, conditions) := separateTerms terms
  if eventTypes.length > 1 then
    throw (.invalidParams "tm.event can only be used once in a query")
  pure ⟨eventTypes.head?, conditions⟩

/-! ## No parsed string has a quote -/

/-- The strings of an operand. -/
def Operand.strings : Operand F D T → List String
  | .string s => [s]
  | _ => []

/-- The strings of an operation: those of its operand, or the string of `CONTAINS`. -/
def Operation.strings : Operation F D T → List String
  | .eq op | .lt op | .lte op | .gt op | .gte op => op.strings
  | .contains op => [op]
  | .exists => []

/-- The strings of a query's conditions. -/
def Query.strings (q : Query F D T) : List String :=
  q.conditions.flatMap fun c => c.operation.strings

/-- The strings of a term. -/
def Term.strings : Term F D T → List String
  | .eventType _ => []
  | .condition c => c.operation.strings

/-- No string of the list has a single quote. -/
def QuoteFree (strings : List String) : Prop := ∀ s ∈ strings, '\'' ∉ s.toList

theorem quoteFree_nil : QuoteFree [] := fun _ h => nomatch h

theorem quoteFree_singleton {s : String} : QuoteFree [s] ↔ '\'' ∉ s.toList := by
  simp [QuoteFree]

namespace QueryParser

open Peg

variable {fmt : Formats F D T}

theorem string_yields : Yields string fun s => '\'' ∉ s.toList := by
  refine Yields.bind (.of_forall fun _ => trivial) fun _ _ => ?_
  refine Yields.bind yields_span fun s hs => ?_
  refine Yields.bind (.of_forall fun _ => trivial) fun _ _ => .pure ?_
  rw [String.toList_ofList]
  intro hq
  simpa using hs _ hq

/-- An operand the grammar reads as other than a string has no string. -/
theorem guardMap_yields_quoteFree {e : Peg Char α} {f : α → Option β} {mk : β → Operand F D T}
    (hmk : ∀ b, (mk b).strings = []) :
    Yields (guardMap e fun a => (f a).map mk) fun op => QuoteFree op.strings :=
  Yields.guardMap (.of_forall fun _ => trivial) fun _ op _ h => by
    obtain ⟨b, -, rfl⟩ := Option.map_eq_some_iff.mp h
    rw [hmk]
    exact quoteFree_nil

theorem map_yields_quoteFree {e : Peg Char α} {mk : α → Operand F D T}
    (hmk : ∀ a, (mk a).strings = []) : Yields (mk <$> e) fun op => QuoteFree op.strings :=
  Yields.map (.of_forall fun _ => trivial) fun a _ => by
    rw [hmk]
    exact quoteFree_nil

theorem operand_yields : Yields (operand fmt) fun op => QuoteFree op.strings := by
  refine .orElse (guardMap_yields_quoteFree fun _ => rfl) <|
    .orElse (guardMap_yields_quoteFree fun _ => rfl) <| .orElse ?_ <|
    .orElse (map_yields_quoteFree fun _ => rfl) <| .orElse (map_yields_quoteFree fun _ => rfl) <|
    map_yields_quoteFree fun _ => rfl
  -- the string operand
  exact Yields.map string_yields fun s hs => quoteFree_singleton.mpr hs

theorem comparison_yields {symbol : String} {mk : String → Operand F D T → Condition F D T}
    (hmk : ∀ t op, (mk t op).operation.strings = op.strings) :
    Yields (comparison fmt symbol mk) fun c => QuoteFree c.operation.strings := by
  refine Yields.bind (.of_forall fun _ => trivial) fun t _ => ?_
  refine Yields.bind (.of_forall fun _ => trivial) fun _ _ => ?_
  refine Yields.bind (.of_forall fun _ => trivial) fun _ _ => ?_
  refine Yields.bind (.of_forall fun _ => trivial) fun _ _ => ?_
  refine Yields.bind operand_yields fun op hop => .pure ?_
  rw [hmk]
  exact hop

theorem condition_yields : Yields (condition fmt) fun t => QuoteFree t.strings := by
  refine Yields.map (P := fun c => QuoteFree c.operation.strings) ?_ fun _ h => h
  refine .orElse (comparison_yields fun _ _ => rfl) <| .orElse (comparison_yields fun _ _ => rfl) <|
    .orElse (comparison_yields fun _ _ => rfl) <| .orElse (comparison_yields fun _ _ => rfl) <|
    .orElse (comparison_yields fun _ _ => rfl) <| .orElse ?_ ?_
  · -- `CONTAINS` and its string
    refine Yields.bind (.of_forall fun _ => trivial) fun t _ => ?_
    refine Yields.bind (.of_forall fun _ => trivial) fun _ _ => ?_
    refine Yields.bind (.of_forall fun _ => trivial) fun _ _ => ?_
    refine Yields.bind (.of_forall fun _ => trivial) fun _ _ => ?_
    exact Yields.bind string_yields fun s hs => .pure (quoteFree_singleton.mpr hs)
  · refine Yields.bind (.of_forall fun _ => trivial) fun t _ => ?_
    refine Yields.bind (.of_forall fun _ => trivial) fun _ _ => ?_
    exact Yields.bind (.of_forall fun _ => trivial) fun _ _ => .pure quoteFree_nil

theorem term_yields : Yields (term fmt) fun t => QuoteFree t.strings := by
  refine .orElse ?_ condition_yields
  exact Yields.guardMap (.of_forall fun _ => trivial) fun _ t _ h => by
    obtain ⟨et, -, rfl⟩ := Option.map_eq_some_iff.mp h
    exact quoteFree_nil

end QueryParser

/-- The conditions `separate_terms` collects are the condition terms. -/
theorem mem_separateTerms_snd {terms : List (Term F D T)} {c : Condition F D T}
    (h : c ∈ (separateTerms terms).2) : Term.condition c ∈ terms := by
  unfold separateTerms at h
  -- the fold's accumulator holds only conditions of the terms before
  suffices hfold : ∀ (acc : List EventType × List (Condition F D T)),
      c ∈ (terms.foldl (fun v t =>
        match t with
        | .eventType et => (v.1 ++ [et], v.2)
        | .condition c => (v.1, v.2 ++ [c])) acc).2 → c ∈ acc.2 ∨ Term.condition c ∈ terms from
    (hfold _ h).resolve_left List.not_mem_nil
  clear h
  induction terms with
  | nil => exact fun _ h => .inl h
  | cons t terms ih =>
    intro acc hc
    rcases ih _ hc with hacc | hmem
    · cases t with
      | eventType et => exact .inl hacc
      | condition c' =>
        rcases List.mem_append.mp hacc with hacc | hc'
        · exact .inl hacc
        · rw [List.mem_singleton.mp hc']
          exact .inr List.mem_cons_self
    · exact .inr (List.mem_cons_of_mem _ hmem)

/-- No query that `Query::from_str` returns has a single quote in a string. -/
theorem fromStr_quoteFree {fmt : Formats F D T} {s : String} {q : Query F D T}
    (h : Query.fromStr fmt s = .ok q) : QuoteFree q.strings := by
  unfold Query.fromStr at h
  cases hp : Peg.parse (QueryParser.query fmt) s.toList with
  | none => simp [hp] at h
  | some terms =>
    have hterms : ∀ t ∈ terms, QuoteFree t.strings :=
      (QueryParser.term_yields.sepBy).parse hp
    simp only [hp, pure_bind] at h
    split at h
    · cases h
    · cases h
      intro str hstr
      obtain ⟨c, hc, hs⟩ := List.mem_flatMap.mp hstr
      exact hterms _ (mem_separateTerms_snd hc) str hs

/-! ## What the grammar reads back from a printed condition -/

/-- What `escape` writes for one character. -/
def escapeChar (ch : Char) : List Char := if ch == '\\' || ch == '\'' then ['\\', ch] else [ch]

/-- The characters of `escape`'s result between its quotes. -/
def escapeChars (s : List Char) : List Char := s.flatMap escapeChar

theorem escape_toList (s : String) :
    (escape s).toList = '\'' :: (escapeChars s.toList ++ ['\'']) := by
  -- the loop pushes the escaped characters after those of the result so far
  have hloop : ∀ (l : List Char) (acc : String), (l.foldl (fun result ch =>
      (if ch == '\\' || ch == '\'' then result.push '\\' else result).push ch) acc).toList =
      acc.toList ++ escapeChars l := by
    intro l
    induction l with
    | nil => simp [escapeChars]
    | cons ch l ih =>
      intro acc
      rw [List.foldl_cons, ih]
      simp only [escapeChars, List.flatMap_cons]
      rw [← List.append_assoc]
      congr 1
      unfold escapeChar
      split <;> simp [String.toList_push]
  rw [escape, String.toList_append, String.toList_append, hloop]
  rfl

theorem one_le_length_escapeChar (ch : Char) : 1 ≤ (escapeChar ch).length := by
  unfold escapeChar
  split <;> simp

theorem length_le_length_escapeChars (s : List Char) : s.length ≤ (escapeChars s).length := by
  induction s with
  | nil => exact Nat.zero_le _
  | cons ch s ih =>
    have := one_le_length_escapeChar ch
    simp only [escapeChars, List.flatMap_cons, List.length_append, List.length_cons] at ih ⊢
    omega

theorem eq_of_quote_mem_escapeChar {ch : Char} (h : '\'' ∈ escapeChar ch) : ch = '\'' := by
  unfold escapeChar at h
  split at h
  · simp only [List.mem_cons, List.not_mem_nil, or_false] at h
    rcases h with h | h
    · exact absurd h (by decide)
    · exact h.symm
  · exact (List.mem_singleton.mp h).symm

theorem quote_not_mem_escapeChars {s : List Char} (h : '\'' ∉ s) : '\'' ∉ escapeChars s := by
  intro hq
  obtain ⟨ch, hch, hq⟩ := List.mem_flatMap.mp hq
  exact h (eq_of_quote_mem_escapeChar hq ▸ hch)

/-- Escaping gives back a string without quotes exactly when it has no backslash. -/
theorem escapeChars_eq_self_iff {s : List Char} (h : '\'' ∉ s) :
    escapeChars s = s ↔ '\\' ∉ s := by
  induction s with
  | nil => simp [escapeChars]
  | cons ch s ih =>
    have ih := ih (fun hq => h (List.mem_cons_of_mem _ hq))
    have hch : ch ≠ '\'' := fun hc => h (hc ▸ List.mem_cons_self)
    by_cases hb : ch = '\\'
    · -- an escaped backslash makes the text longer
      subst hb
      have hlen := length_le_length_escapeChars s
      have hesc : escapeChars ('\\' :: s) = '\\' :: '\\' :: escapeChars s := rfl
      simp only [hesc, List.mem_cons, true_or, not_true_eq_false, iff_false]
      intro heq
      have := congrArg List.length heq
      simp only [List.length_cons] at this
      omega
    · have hesc : escapeChars (ch :: s) = ch :: escapeChars s := by
        simp [escapeChars, escapeChar, hb, hch]
      rw [hesc, List.cons.injEq, ih]
      simp [Ne.symm hb]

namespace QueryParser

open Peg

variable {fmt : Formats F D T} {rest : List Char}

theorem tagChar_ne {c : Char} (h : tagChar c = true) : c ≠ ' ' ∧ c ≠ '=' := by
  constructor <;> (rintro rfl; exact absurd h (by decide))

theorem ws_of_head {input : List Char} (h : ∀ c ∈ input.head?, c ≠ ' ') :
    ws input = some ((), input) := by
  have hspan : span (· == ' ') ([] ++ input) = some ([], input) :=
    span_append (fun _ h => nomatch h) fun c hc => by simpa using h c hc
  exact bind_of_eq_some hspan

theorem ws_space (h : ∀ c ∈ rest.head?, c ≠ ' ') : ws (' ' :: rest) = some ((), rest) := by
  have hspan : span (· == ' ') ([' '] ++ rest) = some ([' '], rest) :=
    span_append (by simp) fun c hc => by simpa using h c hc
  exact bind_of_eq_some hspan

theorem ws1_space (h : ∀ c ∈ rest.head?, c ≠ ' ') : ws1 (' ' :: rest) = some ((), rest) := by
  have hspan : span1 (· == ' ') ([' '] ++ rest) = some ([' '], rest) :=
    span1_append (by simp) (by simp) fun c hc => by simpa using h c hc
  exact bind_of_eq_some hspan

theorem string_append {body : List Char} (h : '\'' ∉ body) :
    string ('\'' :: (body ++ '\'' :: rest)) = some (String.ofList body, rest) := by
  have hopen : lit ['\''] ('\'' :: (body ++ '\'' :: rest)) = some ((), body ++ '\'' :: rest) :=
    lit_append ['\''] _
  have hbody : span (· != '\'') (body ++ '\'' :: rest) = some (body, '\'' :: rest) := by
    refine span_append (fun c hc => ?_) (by simp)
    simp only [bne_iff_ne, ne_eq]
    rintro rfl
    exact h hc
  have hclose : lit ['\''] ('\'' :: rest) = some ((), rest) := lit_append ['\''] _
  rw [string, bind_of_eq_some hopen, bind_of_eq_some hbody, bind_of_eq_some hclose]
  rfl

theorem operand_string {body : List Char} (h : '\'' ∉ body) :
    operand fmt ('\'' :: (body ++ '\'' :: rest)) = some (.string (String.ofList body), rest) := by
  -- the date-time and date operands start with a keyword, not a quote
  have htime : datetimeOp fmt ('\'' :: (body ++ '\'' :: rest)) = none :=
    guardMap_of_eq_none (bind_of_eq_none (lit_eq_none_iff.mpr (by simp)))
  have hdate : dateOp fmt ('\'' :: (body ++ '\'' :: rest)) = none :=
    guardMap_of_eq_none (bind_of_eq_none (lit_eq_none_iff.mpr (by simp)))
  rw [operand, orElse_of_eq_none htime, orElse_of_eq_none hdate, stringOp,
    orElse_of_eq_some (by rw [map_apply, string_append h]; rfl)]

theorem tagChar_space : tagChar ' ' = false := rfl

/-- A key that matches the tag grammar has no space and no equals sign. -/
theorem ne_of_mem_isTag {key : String} {c : Char} (hk : isTag key = true) (hc : c ∈ key.toList) :
    c ≠ ' ' ∧ c ≠ '=' := by
  unfold isTag at hk
  cases hkey : key.toList with
  | nil =>
    rw [hkey] at hc
    cases hc
  | cons c₀ cs =>
    rw [hkey] at hk hc
    simp only [Bool.and_eq_true, List.all_eq_true] at hk
    rcases List.mem_cons.mp hc with rfl | hc
    · constructor <;> (rintro rfl; exact absurd hk.1 (by decide))
    · exact tagChar_ne (hk.2 c hc)

theorem tag_append {key : String} (hk : isTag key = true)
    (hrest : ∀ c ∈ rest.head?, tagChar c = false) : tag (key.toList ++ rest) = some (key, rest) := by
  unfold isTag at hk
  cases hkey : key.toList with
  | nil => simp [hkey] at hk
  | cons c cs =>
    rw [hkey] at hk
    simp only [Bool.and_eq_true, List.all_eq_true] at hk
    have hc : sat Char.isAlpha (c :: (cs ++ rest)) = some (c, cs ++ rest) := by
      rw [sat_cons, if_pos hk.1]
    rw [List.cons_append, tag, bind_of_eq_some hc, bind_of_eq_some (span_append hk.2 hrest),
      pure_apply, ← hkey, String.ofList_toList]

/-- A condition's key other than `tm.event` is not read as an event type. -/
theorem eventType_eq_none {key : String} (hk : isTag key = true) (hne : key ≠ "tm.event")
    (rest : List Char) : eventType (key.toList ++ ' ' :: rest) = (none : Option (Term F D T × _)) := by
  unfold eventType
  apply guardMap_of_eq_none
  cases hlit : lit "tm.event".toList (key.toList ++ ' ' :: rest) with
  | none => exact bind_of_eq_none hlit
  | some r =>
    obtain ⟨⟨⟩, r⟩ := r
    rw [bind_of_eq_some hlit]
    have hsplit := lit_eq_some_iff.mp hlit
    rcases List.append_eq_append_iff.mp hsplit with ⟨a', hkey, hsp⟩ | ⟨c', hkey, hr⟩
    · -- the key is a prefix of `tm.event`, followed in the input by a space
      cases a' with
      | nil => exact absurd (String.toList_inj.mp (by simpa using hkey.symm)) hne
      | cons x xs =>
        obtain ⟨rfl, -⟩ := List.cons.inj hsp
        have : ' ' ∈ "tm.event".toList := by rw [hkey]; simp
        exact absurd this (by decide)
    · -- `tm.event` is a proper prefix of the key: neither spaces nor `=` follow it
      cases c' with
      | nil => exact absurd (String.toList_inj.mp (by simpa using hkey)) hne
      | cons d ds =>
        have hd := ne_of_mem_isTag (c := d) hk (by rw [hkey]; simp)
        have hr : r = d :: (ds ++ ' ' :: rest) := hr
        rw [hr, bind_of_eq_some (ws_of_head (by simpa using hd.1)),
          bind_of_eq_none (lit_eq_none_iff.mpr (not_prefix_of_head?_ne (by simp)
            (by simpa using Ne.symm hd.2)))]

/-- A comparison reads a key, its symbol between single spaces, and an operand. -/
theorem comparison_append {symbol : String} {mk : String → Operand F D T → Condition F D T}
    {key : String} {opInput : List Char} {op : Operand F D T} (hk : isTag key = true)
    (hsym : ∀ c ∈ symbol.toList.head?, c ≠ ' ') (hsymne : symbol.toList ≠ [])
    (hhead : ∀ c ∈ opInput.head?, c ≠ ' ') (hop : operand fmt opInput = some (op, rest)) :
    comparison fmt symbol mk (key.toList ++ ' ' :: (symbol.toList ++ ' ' :: opInput)) =
      some (mk key op, rest) := by
  have hsym' : ∀ c ∈ (symbol.toList ++ ' ' :: opInput).head?, c ≠ ' ' := by
    rwa [List.head?_append_of_ne_nil _ hsymne]
  rw [comparison, bind_of_eq_some (tag_append hk (by simp [tagChar_space])),
    bind_of_eq_some (ws_space hsym'), bind_of_eq_some (lit_append _ _),
    bind_of_eq_some (ws_space hhead), bind_of_eq_some hop]
  rfl

/-- A comparison fails where another word follows the key. -/
theorem comparison_eq_none {symbol : String} {mk : String → Operand F D T → Condition F D T}
    {key : String} {d : Char} (hk : isTag key = true) (hd : d ≠ ' ') (hsymne : symbol.toList ≠ [])
    (hsym : symbol.toList.head? ≠ some d) :
    comparison fmt symbol mk (key.toList ++ ' ' :: d :: rest) = none := by
  rw [comparison, bind_of_eq_some (tag_append hk (by simp [tagChar_space])),
    bind_of_eq_some (ws_space (by simpa using hd)),
    bind_of_eq_none (lit_eq_none_iff.mpr (not_prefix_of_head?_ne hsymne
      (show symbol.toList.head? ≠ (d :: rest).head? from hsym)))]

theorem contains_append {key : String} {body : List Char} (hk : isTag key = true)
    (h : '\'' ∉ body) :
    (contains : Peg Char (Condition F D T))
        (key.toList ++ ' ' :: ("CONTAINS".toList ++ ' ' :: ('\'' :: (body ++ '\'' :: rest)))) =
      some (Condition.contains key (String.ofList body), rest) := by
  rw [contains, bind_of_eq_some (tag_append hk (by simp [tagChar_space])),
    bind_of_eq_some (ws1_space (by simp)), bind_of_eq_some (lit_append _ _),
    bind_of_eq_some (ws1_space (by simp)), bind_of_eq_some (string_append h)]
  rfl

theorem condition_eq {key : String} {opInput : List Char} {op : Operand F D T}
    (hk : isTag key = true) (hhead : ∀ c ∈ opInput.head?, c ≠ ' ')
    (hop : operand fmt opInput = some (op, rest)) :
    condition fmt (key.toList ++ ' ' :: ("=".toList ++ ' ' :: opInput)) =
      some (.condition (Condition.eq key op), rest) := by
  rw [condition, map_apply, eq,
    orElse_of_eq_some (comparison_append hk (by simp) (by simp) hhead hop)]
  rfl

theorem condition_contains {key : String} {body : List Char} (hk : isTag key = true)
    (h : '\'' ∉ body) :
    condition fmt
        (key.toList ++ ' ' :: ("CONTAINS".toList ++ ' ' :: ('\'' :: (body ++ '\'' :: rest)))) =
      some (.condition (Condition.contains key (String.ofList body)), rest) := by
  -- no comparison symbol starts the word `CONTAINS`
  have hcmp : ∀ (symbol : String) (mk : String → Operand F D T → Condition F D T),
      symbol.toList ≠ [] → symbol.toList.head? ≠ some 'C' →
        comparison fmt symbol mk
          (key.toList ++ ' ' :: ("CONTAINS".toList ++ ' ' :: ('\'' :: (body ++ '\'' :: rest)))) =
          none :=
    fun _ _ hne hsym => comparison_eq_none hk (by decide) hne hsym
  rw [condition, map_apply, eq, orElse_of_eq_none (hcmp _ _ (by simp) (by simp)), lte,
    orElse_of_eq_none (hcmp _ _ (by simp) (by simp)), lt,
    orElse_of_eq_none (hcmp _ _ (by simp) (by simp)), gte,
    orElse_of_eq_none (hcmp _ _ (by simp) (by simp)), gt,
    orElse_of_eq_none (hcmp _ _ (by simp) (by simp)), orElse_of_eq_some (contains_append hk h)]
  rfl

theorem term_of_key {key : String} (hk : isTag key = true) (hne : key ≠ "tm.event")
    (rest : List Char) :
    term fmt (key.toList ++ ' ' :: rest) = condition fmt (key.toList ++ ' ' :: rest) :=
  orElse_of_eq_none (eventType_eq_none hk hne rest)

/-- A query of one term, with nothing after it, parses to that term. -/
theorem parse_query_of_term {input : List Char} {t : Term F D T} (h : term fmt input = some (t, [])) :
    Peg.parse (query fmt) input = some [t] := by
  have hsep : andSep [] = none := rfl
  -- after the term, no separator follows, and the repetition stops
  have hrep : (do
      let a ← term fmt
      let as ← sepByTail (term fmt) andSep input.length
      pure (a :: as)) input = some ([t], []) := by
    rw [bind_of_eq_some h, bind_of_eq_some (sepByTail_of_sep_eq_none hsep _)]
    rfl
  apply parse_of_eq_some
  rw [query, sepBy, orElse_of_eq_some hrep]

end QueryParser

/-- A query whose text parses to one condition is that condition. -/
theorem fromStr_of_parse_condition {fmt : Formats F D T} {s : String} {c : Condition F D T}
    (h : Peg.parse (QueryParser.query fmt) s.toList = some [.condition c]) :
    Query.fromStr fmt s = .ok ⟨none, [c]⟩ := by
  simp [Query.fromStr, h, separateTerms]

section RoundTrip

variable {fmt : Formats F D T} {key : String}

theorem eq_toString_toList {op : Operand F D T} :
    ((Query.eq key op).toString fmt).toList =
      key.toList ++ ' ' :: ("=".toList ++ ' ' :: (op.toString fmt).toList) := by
  simp [Query.toString, Query.eq, Condition.eq, Condition.new, join, Condition.toString,
    String.toList_append]

theorem contains_toString_toList {value : String} :
    ((Query.contains key value : Query F D T).toString fmt).toList =
      key.toList ++ ' ' :: ("CONTAINS".toList ++ ' ' :: (escape value).toList) := by
  simp [Query.toString, Query.contains, Condition.contains, Condition.new, join,
    Condition.toString, String.toList_append]

/-- A string operand without quotes is read back with its backslashes doubled. -/
theorem fromStr_eq_toString (hk : QueryParser.isTag key = true) (hne : key ≠ "tm.event")
    {s : String} (hs : '\'' ∉ s.toList) :
    Query.fromStr fmt ((Query.eq key (.string s)).toString fmt) =
      .ok (Query.eq key (.string (String.ofList (escapeChars s.toList)))) := by
  apply fromStr_of_parse_condition
  apply QueryParser.parse_query_of_term
  rw [eq_toString_toList, Operand.toString, escape_toList, QueryParser.term_of_key hk hne]
  exact QueryParser.condition_eq hk (by simp)
    (QueryParser.operand_string (quote_not_mem_escapeChars hs))

/-- The string of a `CONTAINS` without quotes is read back with its backslashes doubled. -/
theorem fromStr_contains_toString (hk : QueryParser.isTag key = true) (hne : key ≠ "tm.event")
    {s : String} (hs : '\'' ∉ s.toList) :
    Query.fromStr fmt ((Query.contains key s : Query F D T).toString fmt) =
      .ok (Query.contains key (String.ofList (escapeChars s.toList))) := by
  apply fromStr_of_parse_condition
  apply QueryParser.parse_query_of_term
  rw [contains_toString_toList, escape_toList, QueryParser.term_of_key hk hne]
  exact QueryParser.condition_contains hk (quote_not_mem_escapeChars hs)

/-- An equality query of a string gives back its string. -/
theorem Query.eq_string_inj {a b : String} :
    (Query.eq key (.string a) : Query F D T) = Query.eq key (.string b) ↔ a = b := by
  simp [Query.eq, Condition.eq, Condition.new]

theorem Query.contains_inj {a b : String} :
    (Query.contains key a : Query F D T) = Query.contains key b ↔ a = b := by
  simp [Query.contains, Condition.contains, Condition.new]

/-- The text of `escape` reads back as the same string exactly when it has no quote and no
backslash. -/
theorem ofList_escapeChars_eq_iff {s : String} (hs : '\'' ∉ s.toList) :
    String.ofList (escapeChars s.toList) = s ↔ '\\' ∉ s.toList := by
  rw [← escapeChars_eq_self_iff hs]
  constructor
  · intro h
    rw [← String.toList_ofList (l := escapeChars s.toList), h]
  · intro h
    rw [h, String.ofList_toList]

/-- Printing a query with a string operand, or with `CONTAINS`, and parsing it back gives the same
query exactly when the string has neither a single quote nor a backslash: with a quote the text
does not parse back to it, and a backslash comes back doubled. -/
theorem query_roundtrip_iff_no_quote_or_backslash (fmt : Formats F D T)
    (hk : QueryParser.isTag key = true) (hne : key ≠ "tm.event") (s : String) :
    (Query.fromStr fmt ((Query.eq key (.string s)).toString fmt) = .ok (Query.eq key (.string s)) ↔
      '\'' ∉ s.toList ∧ '\\' ∉ s.toList) ∧
    (Query.fromStr fmt ((Query.contains key s : Query F D T).toString fmt) =
        .ok (Query.contains key s) ↔
      '\'' ∉ s.toList ∧ '\\' ∉ s.toList) := by
  by_cases hq : '\'' ∈ s.toList
  · -- no parsed query has a quote in a string
    have hno : ∀ q : Query F D T, s ∈ q.strings → ∀ input, Query.fromStr fmt input ≠ .ok q :=
      fun q hs input h => fromStr_quoteFree h s hs hq
    exact ⟨⟨fun h => absurd h (hno _ (by simp [Query.strings, Query.eq, Condition.eq,
        Condition.new, Operation.strings, Operand.strings]) _), fun h => absurd hq h.1⟩,
      ⟨fun h => absurd h (hno _ (by simp [Query.strings, Query.contains, Condition.contains,
        Condition.new, Operation.strings]) _), fun h => absurd hq h.1⟩⟩
  · rw [fromStr_eq_toString hk hne hq, fromStr_contains_toString hk hne hq]
    simp only [Except.ok.injEq, Query.eq_string_inj, Query.contains_inj,
      ofList_escapeChars_eq_iff hq, hq, not_false_eq_true, true_and, and_self]

/-- Operands of no other kind than strings and integers. -/
def stringFormats : Formats Unit Unit Unit :=
  ⟨fun _ => "", fun _ => none, fun _ => "", fun _ => none, fun _ => "", fun _ => none⟩

theorem query_roundtrip_fails_on_backslash :
    Query.fromStr stringFormats ((Query.eq "k" (.string "a\\b")).toString stringFormats) ≠
      .ok (Query.eq "k" (.string "a\\b")) := fun h =>
  ((query_roundtrip_iff_no_quote_or_backslash stringFormats (by decide) (by decide)
    "a\\b").1.mp h).2 (by decide)

end RoundTrip

end Rpc

end Tendermint
