import Tendermint.Lib.Slice
import Tendermint.Types.Scalars

/-!
# ABCI events and their protobuf conversions

`abci::Event` and `abci::EventAttribute` (`abci/event.rs`), with the conversions to and from the
protobuf messages of the three protocol versions (modules `v0_34`, `v0_37` and `v0_38`).

An attribute is built in one of two variants: `V034`, whose key and value are byte strings, or
`V037`, whose key and value are strings. `Event::new` builds `V037` attributes, through
`From<(K, V, bool)>`. Each version's `From<Event> for pb::Event` keeps the attributes of its own
variant (`filter_map` with a `let ... else`) and drops the others; its `TryFrom<pb::Event>` wraps
every decoded attribute in that variant. The v0_34 attribute decoder builds the key from the wire
field `value`.

The three versions are one conversion each way with parameters (`Event.toPbWith`,
`Event.tryFromPbWith`); each version's own functions keep their names and are that conversion at
the version's attribute functions. The round trip of each version keeps exactly the attributes of
its own variant (`tryFromPbWith_toPbWith`), and the v0_34 one writes each value over its key
(`V034.Event.tryFromPb_toPb`). So a round trip gives back the event exactly when every attribute
is of the version's variant, and, for v0_34, has its key equal to its value
(`V034.Event.tryFromPb_toPb_eq_self_iff`, `V037.Event.tryFromPb_toPb_eq_self_iff`,
`V038.Event.tryFromPb_toPb_eq_self_iff`).
-/

namespace Tendermint

namespace Abci

/-- `v0_34::EventAttribute`: key and value are arbitrary bytes. -/
structure V034.EventAttribute where
  key : Bytes
  value : Bytes
  index : Bool
deriving DecidableEq, Repr

/-- `v0_37::EventAttribute` (also v0_38's): key and value are strings. -/
structure V037.EventAttribute where
  key : String
  value : String
  index : Bool
deriving DecidableEq, Repr

/-- `abci::EventAttribute`. -/
inductive EventAttribute
  | v037 (attr : V037.EventAttribute)
  | v034 (attr : V034.EventAttribute)
deriving DecidableEq, Repr

namespace EventAttribute

/-- `EventAttribute::key_bytes`. -/
def keyBytes : EventAttribute → Bytes
  | .v034 attr => attr.key
  | .v037 attr => attr.key.toUTF8.toList

/-- `EventAttribute::value_bytes`. -/
def valueBytes : EventAttribute → Bytes
  | .v034 attr => attr.value
  | .v037 attr => attr.value.toUTF8.toList

/-- `EventAttribute::index`. -/
def index : EventAttribute → Bool
  | .v034 attr => attr.index
  | .v037 attr => attr.index

/-- `From<(K, V, bool)> for EventAttribute`. -/
def ofTuple (key value : String) (index : Bool) : EventAttribute :=
  .v037 ⟨key, value, index⟩

end EventAttribute

/-- `abci::Event`. -/
structure Event where
  kind : String
  attributes : List EventAttribute
deriving DecidableEq, Repr

/-- `Event::new`, with attributes given as `(key, value, index)` tuples (as `.index()` and
`.no_index()` build them). -/
def Event.new (kind : String) (attributes : List (String × String × Bool)) : Event :=
  ⟨kind, attributes.map fun (key, value, index) => EventAttribute.ofTuple key value index⟩

/-! ## Protobuf messages -/

/-- `pb::Event` of a protocol version whose attribute message is `α`. -/
structure Pb.Event (α : Type) where
  type : String
  attributes : List α
deriving DecidableEq, Repr

/-- `tendermint_proto::v0_34::abci::EventAttribute`. -/
structure Pb.V034.EventAttribute where
  key : Bytes
  value : Bytes
  index : Bool
deriving DecidableEq, Repr

/-- `tendermint_proto::v0_37::abci::EventAttribute`. -/
structure Pb.V037.EventAttribute where
  key : String
  value : String
  index : Bool
deriving DecidableEq, Repr

/-- `tendermint_proto::v0_38::abci::EventAttribute`. -/
structure Pb.V038.EventAttribute where
  key : String
  value : String
  index : Bool
deriving DecidableEq, Repr

/-! ## The conversions of every version -/

section Conversions

variable {α β : Type}

/-- `From<Event> for pb::Event`: the attributes that `select` keeps, converted. -/
def Event.toPbWith (select : EventAttribute → Option α) (event : Event) : Pb.Event α :=
  ⟨event.kind, event.attributes.filterMap select⟩

/-- `TryFrom<pb::Event> for Event`: every attribute decoded by `decode` and wrapped in a
variant by `wrap`. -/
def Event.tryFromPbWith (decode : α → Except Tendermint.Error β) (wrap : β → EventAttribute)
    (event : Pb.Event α) : Except Tendermint.Error Event := do
  let attributes ← event.attributes.mapM decode
  pure ⟨event.type, attributes.map wrap⟩

/-- The round trip of a version whose attribute decoder does not fail: the attributes that
`select` keeps, as the decoder gives them back. -/
theorem tryFromPbWith_toPbWith (select : EventAttribute → Option α) (decode : α → β)
    (wrap : β → EventAttribute) (event : Event) :
    Event.tryFromPbWith (fun a => .ok (decode a)) wrap (event.toPbWith select) =
      .ok ⟨event.kind, event.attributes.filterMap fun a => (select a).map (wrap ∘ decode)⟩ := by
  have hmapM : ((event.attributes.filterMap select).mapM fun a =>
      (Except.ok (decode a) : Except Tendermint.Error β)) = pure ((event.attributes.filterMap select).map
        decode) := List.mapM_pure
  simp only [Event.tryFromPbWith, Event.toPbWith, hmapM, pure_bind, List.map_filterMap,
    Option.map_map]
  rfl

/-- A round trip gives back the event exactly when it keeps every attribute as it is. -/
theorem tryFromPbWith_toPbWith_eq_self_iff (select : EventAttribute → Option α)
    (decode : α → β) (wrap : β → EventAttribute) (event : Event) :
    Event.tryFromPbWith (fun a => .ok (decode a)) wrap (event.toPbWith select) = .ok event ↔
      ∀ a ∈ event.attributes, (select a).map (wrap ∘ decode) = some a := by
  rw [tryFromPbWith_toPbWith, ← Slice.filterMap_eq_self_iff]
  obtain ⟨kind, attributes⟩ := event
  constructor
  · intro h
    exact congrArg Event.attributes (Except.ok.inj h)
  · intro h
    rw [h]

end Conversions

/-! ## v0_34 -/

namespace V034

/-- `From<v0_34::EventAttribute> for pb::EventAttribute`. -/
def EventAttribute.toPb (event : EventAttribute) : Pb.V034.EventAttribute :=
  ⟨event.key, event.value, event.index⟩

/-- `TryFrom<pb::EventAttribute> for v0_34::EventAttribute`: the key is read from the wire
field `value`. -/
def EventAttribute.tryFromPb (event : Pb.V034.EventAttribute) : Except Tendermint.Error EventAttribute :=
  .ok { key := event.value, value := event.value, index := event.index }

/-- The attribute conversion of `From<Event> for pb::Event` in v0_34: `V034` attributes only. -/
def selectAttribute : Abci.EventAttribute → Option Pb.V034.EventAttribute
  | .v034 ea => some ea.toPb
  | _ => none

/-- `From<Event> for pb::Event` in v0_34. -/
def Event.toPb (event : Abci.Event) : Pb.Event Pb.V034.EventAttribute :=
  event.toPbWith selectAttribute

/-- `TryFrom<pb::Event> for Event` in v0_34. -/
def Event.tryFromPb (event : Pb.Event Pb.V034.EventAttribute) : Except Tendermint.Error Abci.Event :=
  Abci.Event.tryFromPbWith EventAttribute.tryFromPb .v034 event

/-- The attribute decoder of v0_34, which does not fail. -/
def decodeAttribute (event : Pb.V034.EventAttribute) : EventAttribute :=
  ⟨event.value, event.value, event.index⟩

/-- What the v0_34 round trip makes of an attribute: a `V034` attribute with its value written
over its key, and nothing of a `V037` one. -/
def roundTripAttribute (a : Abci.EventAttribute) : Option Abci.EventAttribute :=
  (selectAttribute a).map (Abci.EventAttribute.v034 ∘ decodeAttribute)

/-- The v0_34 round trip drops the `V037` attributes and writes each value over its key. -/
theorem Event.tryFromPb_toPb (event : Abci.Event) :
    Event.tryFromPb (Event.toPb event) =
      .ok ⟨event.kind, event.attributes.filterMap roundTripAttribute⟩ :=
  tryFromPbWith_toPbWith selectAttribute decodeAttribute .v034 event

theorem roundTripAttribute_eq_self_iff (a : Abci.EventAttribute) :
    roundTripAttribute a = some a ↔ ∃ ea : EventAttribute, a = .v034 ea ∧ ea.key = ea.value := by
  cases a with
  | v037 ea => simp [roundTripAttribute, selectAttribute]
  | v034 ea =>
    obtain ⟨key, value, index⟩ := ea
    simp [roundTripAttribute, selectAttribute, decodeAttribute, EventAttribute.toPb, eq_comm]

/-- The v0_34 round trip gives back an event exactly when each of its attributes is a `V034`
attribute whose key is its value. -/
theorem Event.tryFromPb_toPb_eq_self_iff (event : Abci.Event) :
    Event.tryFromPb (Event.toPb event) = .ok event ↔
      ∀ a ∈ event.attributes, ∃ ea : EventAttribute, a = .v034 ea ∧ ea.key = ea.value := by
  rw [← forall₂_congr fun a _ => roundTripAttribute_eq_self_iff a]
  exact tryFromPbWith_toPbWith_eq_self_iff selectAttribute decodeAttribute .v034 event

end V034

/-! ## v0_37 and v0_38 -/

namespace V037

/-- `From<v0_37::EventAttribute> for pb::EventAttribute`. -/
def EventAttribute.toPb (event : EventAttribute) : Pb.V037.EventAttribute :=
  ⟨event.key, event.value, event.index⟩

/-- `TryFrom<pb::EventAttribute> for v0_37::EventAttribute`. -/
def EventAttribute.tryFromPb (event : Pb.V037.EventAttribute) : Except Tendermint.Error EventAttribute :=
  .ok { key := event.key, value := event.value, index := event.index }

/-- The attribute conversion of `From<Event> for pb::Event` in v0_37: `V037` attributes only. -/
def selectAttribute : Abci.EventAttribute → Option Pb.V037.EventAttribute
  | .v037 ea => some ea.toPb
  | _ => none

/-- `From<Event> for pb::Event` in v0_37. -/
def Event.toPb (event : Abci.Event) : Pb.Event Pb.V037.EventAttribute :=
  event.toPbWith selectAttribute

/-- `TryFrom<pb::Event> for Event` in v0_37. -/
def Event.tryFromPb (event : Pb.Event Pb.V037.EventAttribute) : Except Tendermint.Error Abci.Event :=
  Abci.Event.tryFromPbWith EventAttribute.tryFromPb .v037 event

/-- The attribute decoder of v0_37, which does not fail. -/
def decodeAttribute (event : Pb.V037.EventAttribute) : EventAttribute :=
  ⟨event.key, event.value, event.index⟩

theorem selectAttribute_map_eq_self_iff (a : Abci.EventAttribute) :
    (selectAttribute a).map (Abci.EventAttribute.v037 ∘ decodeAttribute) = some a ↔
      ∃ ea : EventAttribute, a = .v037 ea := by
  cases a with
  | v037 ea => simp [selectAttribute, decodeAttribute, EventAttribute.toPb]
  | v034 ea => simp [selectAttribute]

/-- The v0_37 round trip gives back an event exactly when all its attributes are `V037` ones. -/
theorem Event.tryFromPb_toPb_eq_self_iff (event : Abci.Event) :
    Event.tryFromPb (Event.toPb event) = .ok event ↔
      ∀ a ∈ event.attributes, ∃ ea : EventAttribute, a = .v037 ea := by
  rw [← forall₂_congr fun a _ => selectAttribute_map_eq_self_iff a]
  exact tryFromPbWith_toPbWith_eq_self_iff selectAttribute decodeAttribute .v037 event

end V037

namespace V038

/-- `From<v0_37::EventAttribute> for pb::EventAttribute` of v0_38. -/
def EventAttribute.toPb (event : V037.EventAttribute) : Pb.V038.EventAttribute :=
  ⟨event.key, event.value, event.index⟩

/-- `TryFrom<pb::EventAttribute> for v0_37::EventAttribute`, from v0_38's message. -/
def EventAttribute.tryFromPb (event : Pb.V038.EventAttribute) : Except Tendermint.Error V037.EventAttribute :=
  .ok { key := event.key, value := event.value, index := event.index }

/-- The attribute conversion of `From<Event> for pb::Event` in v0_38: `V037` attributes only. -/
def selectAttribute : Abci.EventAttribute → Option Pb.V038.EventAttribute
  | .v037 ea => some (EventAttribute.toPb ea)
  | _ => none

/-- `From<Event> for pb::Event` in v0_38. -/
def Event.toPb (event : Abci.Event) : Pb.Event Pb.V038.EventAttribute :=
  event.toPbWith selectAttribute

/-- `TryFrom<pb::Event> for Event` in v0_38. -/
def Event.tryFromPb (event : Pb.Event Pb.V038.EventAttribute) : Except Tendermint.Error Abci.Event :=
  Abci.Event.tryFromPbWith EventAttribute.tryFromPb .v037 event

/-- The attribute decoder of v0_38, which does not fail. -/
def decodeAttribute (event : Pb.V038.EventAttribute) : V037.EventAttribute :=
  ⟨event.key, event.value, event.index⟩

theorem selectAttribute_map_eq_self_iff (a : Abci.EventAttribute) :
    (selectAttribute a).map (Abci.EventAttribute.v037 ∘ decodeAttribute) = some a ↔
      ∃ ea : V037.EventAttribute, a = .v037 ea := by
  cases a with
  | v037 ea => simp [selectAttribute, decodeAttribute, EventAttribute.toPb]
  | v034 ea => simp [selectAttribute]

/-- The v0_38 round trip gives back an event exactly when all its attributes are `V037` ones. -/
theorem Event.tryFromPb_toPb_eq_self_iff (event : Abci.Event) :
    Event.tryFromPb (Event.toPb event) = .ok event ↔
      ∀ a ∈ event.attributes, ∃ ea : V037.EventAttribute, a = .v037 ea := by
  rw [← forall₂_congr fun a _ => selectAttribute_map_eq_self_iff a]
  exact tryFromPbWith_toPbWith_eq_self_iff selectAttribute decodeAttribute .v037 event

end V038

/-- The v0_34 round trip drops the attributes that `Event::new` builds, and writes the value of a
`V034` attribute over its key; the v0_37 round trip drops `V034` attributes, even of ASCII bytes. -/
theorem event_roundtrip_drops_and_rekeys_attributes :
    V034.Event.tryFromPb (V034.Event.toPb (Event.new "app" [("key1", "value1", true)])) =
        .ok ⟨"app", []⟩ ∧
      V034.Event.tryFromPb (V034.Event.toPb ⟨"app", [.v034 ⟨[107], [118], true⟩]⟩) =
        .ok ⟨"app", [.v034 ⟨[118], [118], true⟩]⟩ ∧
      V037.Event.tryFromPb (V037.Event.toPb ⟨"app", [.v034 ⟨[107], [118], true⟩]⟩) =
        .ok ⟨"app", []⟩ := by
  refine ⟨?_, ?_, ?_⟩
  · rw [V034.Event.tryFromPb_toPb]
    rfl
  · rw [V034.Event.tryFromPb_toPb]
    rfl
  · rfl

end Abci

end Tendermint
