import Tendermint.Lib.Rust
import Tendermint.Lib.Varint

/-!
# The protocol buffers wire format

A message on the wire is a sequence of fields. Each field is a key, the field number and the wire
type in one varint, followed by a value whose extent the wire type gives: a varint, eight or four
bytes, a length and that many bytes, or a group of fields up to the matching end key. This is the
format as `prost` reads and writes it (`encoding.rs`): `encode_key` and `decode_key`, the bytes and
nested-message fields (`bytes::encode`, `bytes::merge`, `message::encode`, `message::merge`),
`skip_field` for the fields a message does not know, with its recursion limit, and the loop of
`Message::merge`, which hands each field to the message's `merge_field`.

A message type enters as its `merge_field` (`FieldMerger`): the rest of the format is the same for
every message. A nested message is read from the bytes its length delimits; `prost` reads it from
the whole buffer and checks the length afterwards, which differs only in the description of the
error of a field that runs past its message.

Reading back what was written: a key comes back with its number and wire type and leaves the
bytes after it (`decodeKey_encodeKey_append`), and so does a length-delimited value
(`decodeLengthDelimited_append`); a field loop over written fields runs each field's merge in turn
(`mergeFields_encodeKey_append`), and a nested message is its fields' loop
(`mergeMessage_append`). Short lengths and small keys take one byte each (`length_encodeKey`,
`length_encodeLengthDelimited`).
-/

namespace Protobuf

/-- `DecodeError`, by its description. -/
structure DecodeError where
  description : String
deriving DecidableEq, Repr

/-- `WireType`. -/
inductive WireType
  | varint
  | sixtyFourBit
  | lengthDelimited
  | startGroup
  | endGroup
  | thirtyTwoBit
deriving DecidableEq, Repr

namespace WireType

/-- The wire type's value in a key. -/
def toNat : WireType → Nat
  | varint => 0
  | sixtyFourBit => 1
  | lengthDelimited => 2
  | startGroup => 3
  | endGroup => 4
  | thirtyTwoBit => 5

/-- `WireType::try_from(u64)`. -/
def ofNat? : Nat → Option WireType
  | 0 => some varint
  | 1 => some sixtyFourBit
  | 2 => some lengthDelimited
  | 3 => some startGroup
  | 4 => some endGroup
  | 5 => some thirtyTwoBit
  | _ => none

/-- The name `Debug` prints. -/
def name : WireType → String
  | varint => "Varint"
  | sixtyFourBit => "SixtyFourBit"
  | lengthDelimited => "LengthDelimited"
  | startGroup => "StartGroup"
  | endGroup => "EndGroup"
  | thirtyTwoBit => "ThirtyTwoBit"

@[simp] theorem ofNat?_toNat (w : WireType) : ofNat? w.toNat = some w := by
  cases w <;> rfl

theorem toNat_lt (w : WireType) : w.toNat < 8 := by
  cases w <;> decide

end WireType

/-- `RECURSION_LIMIT`: the depth of nested messages and groups a decoder enters. -/
def recursionLimit : Nat := 100

/-- `decode_varint`, with its error. -/
def decodeVarint (buf : List UInt8) : Except DecodeError (UInt64 × List UInt8) :=
  match Varint.decode buf with
  | some r => .ok r
  | none => .error ⟨"invalid varint"⟩

/-- `encode_key`: the field number and the wire type in one varint. -/
def encodeKey (tag : Nat) (wireType : WireType) : List UInt8 :=
  Varint.encode (UInt64.ofNat (tag * 8 + wireType.toNat))

/-- `decode_key`. -/
def decodeKey (buf : List UInt8) : Except DecodeError ((Nat × WireType) × List UInt8) := do
  let (key, rest) ← decodeVarint buf
  if key.toNat > 2 ^ 32 - 1 then throw ⟨"invalid key value: " ++ toString key.toNat⟩
  let wireType ← match WireType.ofNat? (key.toNat % 8) with
    | some wireType => pure wireType
    | none => throw ⟨"invalid wire type value: " ++ toString (key.toNat % 8)⟩
  let tag := key.toNat / 8
  if tag < 1 then throw ⟨"invalid tag value: 0"⟩
  pure ((tag, wireType), rest)

/-- A length-delimited value: its length as a varint, then its bytes. -/
def encodeLengthDelimited (value : List UInt8) : List UInt8 :=
  Varint.encode (UInt64.ofNat value.length) ++ value

/-- The length-delimited value at the start of a buffer, and the bytes after it. -/
def decodeLengthDelimited (buf : List UInt8) : Except DecodeError (List UInt8 × List UInt8) := do
  let (len, rest) ← decodeVarint buf
  if len.toNat > rest.length then throw ⟨"buffer underflow"⟩
  pure (rest.take len.toNat, rest.drop len.toNat)

/-- `check_wire_type`. -/
def checkWireType (expected actual : WireType) : Except DecodeError Unit :=
  if expected = actual then .ok ()
  else .error ⟨"invalid wire type: " ++ actual.name ++ " (expected " ++ expected.name ++ ")"⟩

/-- `bytes::encode` (and `message::encode` of an encoded message): the key, then the value
length-delimited. -/
def encodeBytes (tag : Nat) (value : List UInt8) : List UInt8 :=
  encodeKey tag .lengthDelimited ++ encodeLengthDelimited value

/-- `bytes::merge`: the bytes of a length-delimited field, which replace the field's value. -/
def mergeBytes (wireType : WireType) (buf : List UInt8) :
    Except DecodeError (List UInt8 × List UInt8) := do
  checkWireType .lengthDelimited wireType
  decodeLengthDelimited buf

mutual

/-- `skip_field` at a recursion depth: the bytes after the value of a field of the given wire type
and tag. -/
def skipField : Nat → WireType → Nat → List UInt8 → Except DecodeError (List UInt8)
  | 0, _, _, _ => .error ⟨"recursion limit reached"⟩
  | _ + 1, .varint, _, buf => Prod.snd <$> decodeVarint buf
  | _ + 1, .sixtyFourBit, _, buf =>
    if 8 > buf.length then .error ⟨"buffer underflow"⟩ else .ok (buf.drop 8)
  | _ + 1, .thirtyTwoBit, _, buf =>
    if 4 > buf.length then .error ⟨"buffer underflow"⟩ else .ok (buf.drop 4)
  | _ + 1, .lengthDelimited, _, buf => Prod.snd <$> decodeLengthDelimited buf
  | depth + 1, .startGroup, tag, buf => skipGroup depth tag buf.length buf
  | _ + 1, .endGroup, _, _ => .error ⟨"unexpected end group tag"⟩
termination_by depth _ _ _ => (depth, 0)

/-- The loop of `skip_field` over a group's fields, up to the end key of its tag; the buffer is
fuel enough, as each field takes at least the byte of its key. -/
def skipGroup (depth tag : Nat) : Nat → List UInt8 → Except DecodeError (List UInt8)
  | 0, _ => .error ⟨"buffer underflow"⟩
  | fuel + 1, buf => do
    let ((innerTag, innerWireType), rest) ← decodeKey buf
    match innerWireType with
    | .endGroup => if innerTag ≠ tag then .error ⟨"unexpected end group tag"⟩ else .ok rest
    | _ => do
      let rest ← skipField depth innerWireType innerTag rest
      skipGroup depth tag fuel rest
termination_by fuel _ => (depth, fuel + 1)

end

/-- A message's `merge_field`: at a recursion depth, the message with the field of a tag and wire
type merged in, read from the bytes after the key, and the bytes after the field. -/
abbrev FieldMerger (M : Type) :=
  Nat → M → Nat → WireType → List UInt8 → Except DecodeError (M × List UInt8)

variable {M : Type}

/-- The loop of `Message::merge`: keys and fields until the buffer is empty. The buffer is fuel
enough, as each field takes at least the byte of its key. -/
def mergeFields (mergeField : FieldMerger M) (depth : Nat) : Nat → M → List UInt8 →
    Except DecodeError M
  | _, m, [] => .ok m
  | 0, _, _ :: _ => .error ⟨"buffer underflow"⟩
  | fuel + 1, m, buf@(_ :: _) => do
    let ((tag, wireType), rest) ← decodeKey buf
    let (m, rest) ← mergeField depth m tag wireType rest
    mergeFields mergeField depth fuel m rest

/-- `message::merge`: a length-delimited nested message, merged into `m` one recursion level
down. -/
def mergeMessage (mergeField : FieldMerger M) (depth : Nat) (m : M) (wireType : WireType)
    (buf : List UInt8) : Except DecodeError (M × List UInt8) := do
  checkWireType .lengthDelimited wireType
  if depth = 0 then throw ⟨"recursion limit reached"⟩
  let (body, rest) ← decodeLengthDelimited buf
  let m ← mergeFields mergeField (depth - 1) body.length m body
  pure (m, rest)

/-- `Message::decode_length_delimited`: a length-delimited message merged into the default one. -/
def decodeLengthDelimitedMessage (mergeField : FieldMerger M) (default : M) (buf : List UInt8) :
    Except DecodeError M :=
  Prod.fst <$> mergeMessage mergeField recursionLimit default .lengthDelimited buf

/-! ## Reading back what was written -/

theorem decodeVarint_encode_append (value : UInt64) (rest : List UInt8) :
    decodeVarint (Varint.encode value ++ rest) = .ok (value, rest) := by
  rw [decodeVarint, Varint.decode_encode_append]

/-- A key of a field number from `1` to `2 ^ 29 - 1` comes back, with its wire type. -/
theorem decodeKey_encodeKey_append {tag : Nat} (h1 : 1 ≤ tag) (h2 : tag < 2 ^ 29)
    (wireType : WireType) (rest : List UInt8) :
    decodeKey (encodeKey tag wireType ++ rest) = .ok ((tag, wireType), rest) := by
  have hw := wireType.toNat_lt
  have hkey : (UInt64.ofNat (tag * 8 + wireType.toNat)).toNat = tag * 8 + wireType.toNat :=
    UInt64.toNat_ofNat_of_lt' (by rw [UInt64.size]; omega)
  have hmod : (tag * 8 + wireType.toNat) % 8 = wireType.toNat := by omega
  have hdiv : (tag * 8 + wireType.toNat) / 8 = tag := by omega
  simp only [decodeKey, encodeKey, decodeVarint_encode_append, Rust.ok_bind, hkey, hmod, hdiv,
    WireType.ofNat?_toNat, Rust.pure_eq_ok]
  rw [if_neg (by omega), if_neg (by omega)]

theorem decodeLengthDelimited_append {value : List UInt8} (h : value.length < 2 ^ 64)
    (rest : List UInt8) :
    decodeLengthDelimited (encodeLengthDelimited value ++ rest) = .ok (value, rest) := by
  have hlen : (UInt64.ofNat value.length).toNat = value.length := UInt64.toNat_ofNat_of_lt' h
  simp only [decodeLengthDelimited, encodeLengthDelimited, List.append_assoc,
    decodeVarint_encode_append, Rust.ok_bind, hlen]
  rw [if_neg (by simp), List.take_left' rfl, List.drop_left' rfl]
  rfl

theorem mergeBytes_append {value : List UInt8} (h : value.length < 2 ^ 64) (rest : List UInt8) :
    mergeBytes .lengthDelimited (encodeLengthDelimited value ++ rest) = .ok (value, rest) := by
  rw [mergeBytes, checkWireType, if_pos rfl]
  exact decodeLengthDelimited_append h rest

variable {mergeField : FieldMerger M} {depth : Nat}

@[simp] theorem mergeFields_nil (fuel : Nat) (m : M) : mergeFields mergeField depth fuel m [] = .ok m := by
  cases fuel <;> rfl

/-- A varint takes at least one byte. -/
theorem encode_ne_nil (value : UInt64) : Varint.encode value ≠ [] := by
  rw [Varint.encode, Varint.encodeLoop]
  split <;> simp

theorem encodeKey_ne_nil (tag : Nat) (wireType : WireType) : encodeKey tag wireType ≠ [] :=
  encode_ne_nil _

/-- One turn of the field loop on a written key: the field's merge, then the loop on what is
left. -/
theorem mergeFields_encodeKey_append {tag : Nat} (h1 : 1 ≤ tag) (h2 : tag < 2 ^ 29)
    (wireType : WireType) (fuel : Nat) (m : M) (rest : List UInt8) :
    mergeFields mergeField depth (fuel + 1) m (encodeKey tag wireType ++ rest) =
      (do
        let (m, rest) ← mergeField depth m tag wireType rest
        mergeFields mergeField depth fuel m rest) := by
  obtain ⟨b, bs, hb⟩ := List.exists_cons_of_ne_nil
    (List.append_ne_nil_of_left_ne_nil (encodeKey_ne_nil tag wireType) rest)
  rw [hb, mergeFields, ← hb, decodeKey_encodeKey_append h1 h2]
  rfl

/-- A written bytes field comes first, and every field before the rest takes at least its key's
byte. -/
theorem length_lt_encodeBytes_append (tag : Nat) (value rest : List UInt8) :
    rest.length < (encodeBytes tag value ++ rest).length := by
  have hkey := List.length_pos_of_ne_nil (encodeKey_ne_nil tag .lengthDelimited)
  rw [List.length_append, encodeBytes, List.length_append]
  omega

theorem length_lt_encodeBytes (tag : Nat) (value : List UInt8) :
    value.length < (encodeBytes tag value).length := by
  have hkey := List.length_pos_of_ne_nil (encodeKey_ne_nil tag .lengthDelimited)
  rw [encodeBytes, List.length_append, encodeLengthDelimited, List.length_append]
  omega

/-- The loop over a written bytes field, whose merge reads the value back: the field's new
message, then the loop on the rest with one turn less. -/
theorem mergeFields_encodeBytes_append {tag : Nat} (h1 : 1 ≤ tag) (h2 : tag < 2 ^ 29)
    {value rest : List UInt8} {m m' : M}
    (hfield : mergeField depth m tag .lengthDelimited (encodeLengthDelimited value ++ rest) =
      .ok (m', rest))
    {fuel : Nat} (hfuel : (encodeBytes tag value ++ rest).length ≤ fuel) :
    mergeFields mergeField depth fuel m (encodeBytes tag value ++ rest) =
      mergeFields mergeField depth (fuel - 1) m' rest := by
  -- the fuel, as long as the buffer, is a turn or more
  obtain ⟨n, rfl⟩ : ∃ n, fuel = n + 1 :=
    Nat.exists_eq_add_one.mpr (lt_of_le_of_lt (Nat.zero_le _)
      (lt_of_lt_of_le (length_lt_encodeBytes_append tag value rest) hfuel))
  rw [encodeBytes, List.append_assoc, mergeFields_encodeKey_append h1 h2, hfield]
  rfl

/-- The loop over a last bytes field. -/
theorem mergeFields_encodeBytes {tag : Nat} (h1 : 1 ≤ tag) (h2 : tag < 2 ^ 29)
    {value : List UInt8} {m m' : M}
    (hfield : mergeField depth m tag .lengthDelimited (encodeLengthDelimited value ++ []) =
      .ok (m', []))
    {fuel : Nat} (hfuel : (encodeBytes tag value).length ≤ fuel) :
    mergeFields mergeField depth fuel m (encodeBytes tag value) = .ok m' := by
  rw [← List.append_nil (encodeBytes tag value)] at hfuel ⊢
  rw [mergeFields_encodeBytes_append h1 h2 hfield hfuel, mergeFields_nil]

/-- A bytes field that proto3 leaves out when empty holds at least the value's bytes. -/
theorem length_le_optionalBytes (tag : Nat) (value : List UInt8) :
    value.length ≤ (if value.isEmpty then [] else encodeBytes tag value).length := by
  cases value with
  | nil => exact Nat.zero_le _
  | cons b bs => exact Nat.le_of_lt (length_lt_encodeBytes tag (b :: bs))

/-- The loop over a last bytes field that proto3 leaves out when empty: the message the merge
sets, which is the one before on the empty value. -/
theorem mergeFields_optionalBytes {tag : Nat} (h1 : 1 ≤ tag) (h2 : tag < 2 ^ 29)
    {value : List UInt8} {m m' : M} (hempty : value = [] → m' = m)
    (hfield : value ≠ [] →
      mergeField depth m tag .lengthDelimited (encodeLengthDelimited value ++ []) = .ok (m', []))
    {fuel : Nat} (hfuel : (if value.isEmpty then [] else encodeBytes tag value).length ≤ fuel) :
    mergeFields mergeField depth fuel m (if value.isEmpty then [] else encodeBytes tag value) =
      .ok m' := by
  cases value with
  | nil => rw [hempty rfl, if_pos List.isEmpty_nil, mergeFields_nil]
  | cons b bs =>
    have hne : (b :: bs).isEmpty = false := rfl
    rw [hne, if_neg Bool.false_ne_true] at hfuel ⊢
    exact mergeFields_encodeBytes h1 h2 (hfield (List.cons_ne_nil b bs)) hfuel

/-- A written nested message is the loop over its fields, one level down. -/
theorem mergeMessage_append {value : List UInt8} (h : value.length < 2 ^ 64) (hdepth : depth ≠ 0)
    (m : M) (rest : List UInt8) :
    mergeMessage mergeField depth m .lengthDelimited (encodeLengthDelimited value ++ rest) =
      (do
        let m ← mergeFields mergeField (depth - 1) value.length m value
        pure (m, rest)) := by
  rw [mergeMessage, checkWireType, if_pos rfl]
  simp only [hdepth, if_false, decodeLengthDelimited_append h]
  rfl

/-- A written length-delimited message decodes to what its fields merge to, below the top
recursion level. -/
theorem decodeLengthDelimitedMessage_encode {value : List UInt8} (h : value.length < 2 ^ 64)
    {default m : M}
    (hfields : mergeFields mergeField (recursionLimit - 1) value.length default value = .ok m) :
    decodeLengthDelimitedMessage mergeField default (encodeLengthDelimited value) = .ok m := by
  rw [decodeLengthDelimitedMessage, ← List.append_nil (encodeLengthDelimited value),
    mergeMessage_append h (by decide), hfields]
  rfl

/-! ## Lengths -/

/-- A number below `128` is one byte. -/
theorem encode_ofNat_of_lt {n : Nat} (h : n < 128) :
    Varint.encode (UInt64.ofNat n) = [UInt8.ofNat n] := by
  have hn : (UInt64.ofNat n).toNat = n := UInt64.toNat_ofNat_of_lt' (by rw [UInt64.size]; omega)
  rw [Varint.encode, Varint.encodeLoop, hn, if_pos h]

theorem length_encodeKey {tag : Nat} {wireType : WireType} (h : tag * 8 + wireType.toNat < 128) :
    (encodeKey tag wireType).length = 1 := by
  rw [encodeKey, encode_ofNat_of_lt h, List.length_singleton]

theorem length_encodeLengthDelimited {value : List UInt8} (h : value.length < 128) :
    (encodeLengthDelimited value).length = value.length + 1 := by
  rw [encodeLengthDelimited, List.length_append, encode_ofNat_of_lt h, List.length_singleton]
  omega

/-- A short bytes field of a small tag: its key, its length and its bytes. -/
theorem length_encodeBytes {tag : Nat} {value : List UInt8} (htag : tag < 16)
    (h : value.length < 128) : (encodeBytes tag value).length = value.length + 2 := by
  have hkey : (encodeKey tag .lengthDelimited).length = 1 :=
    length_encodeKey (by rw [WireType.toNat]; omega)
  rw [encodeBytes, List.length_append, hkey, length_encodeLengthDelimited h]
  omega

end Protobuf
