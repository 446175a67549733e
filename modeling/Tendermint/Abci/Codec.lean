import Tendermint.Lib.Loop
import Tendermint.Lib.Varint

/-!
# The ABCI socket codec

`codec.rs`: the framing of the Tendermint Socket Protocol. `Codec::send` writes a message's
encoding after its length as a varint (`encode_length_delimited`), writing until the stream has
taken every byte; iterating a `Codec` decodes the frames from a read buffer that it fills from the
stream (`decode_length_delimited` and `Codec::next`).

The messages are those of a `prost::Message`, whose encoding and decoding the model takes as a
class. The varints are those of `Lib/Varint.lean`. A stream is its `read`, `write` and `flush`, as
functions of its state (`ReadWrite`).

A stream that takes at least one byte of each write receives exactly the frames of the messages
sent (`send_writes_frame`). Over a stream whose reads return any non-empty parts of those frames,
each call of `next` reads until its buffer holds a whole frame and returns its message
(`next_of_pending`): a buffer that ends inside a length or a body is never an error, because it is
a proper prefix of a frame (`decodeLengthDelimited_of_prefix`).
-/

namespace Tendermint

namespace Abci

/-- `prost::DecodeError`, by its description. -/
structure DecodeError where
  description : String
deriving DecidableEq, Repr

/-- What the codec uses of a `prost::Message`: its encoding and its decoding. -/
class Message (M : Type) where
  encode : M → List UInt8
  decode : List UInt8 → Except DecodeError M

/-- A message type whose decoding reads back its encoding, which fits a 64-bit length. -/
class LawfulMessage (M : Type) [Message M] : Prop where
  decode_encode : ∀ m : M, Message.decode (Message.encode m) = .ok m
  length_encode_lt : ∀ m : M, (Message.encode m).length < 2 ^ 64

/-- `std::io::ErrorKind`, as far as the codec names one. -/
inductive IoErrorKind
  | writeZero
  | other
deriving DecidableEq, Repr

/-- `std::io::Error`. -/
structure IoError where
  kind : IoErrorKind
  message : String
deriving DecidableEq, Repr

/-- `Error`, with the variants the codec returns. -/
inductive Error
  | io (e : IoError)
  | decode (e : DecodeError)
deriving DecidableEq, Repr

/-- A `Read + Write` stream with state `σ`: a read into a window of `n` bytes, a write that
takes some of the bytes it is offered, and a flush. -/
structure ReadWrite (σ : Type) where
  read : σ → Nat → Except IoError (List UInt8 × σ)
  write : σ → List UInt8 → Except IoError (Nat × σ)
  flush : σ → Except IoError σ

/-- `MAX_VARINT_LENGTH`. -/
def maxVarintLength : Nat := 16

/-- `Codec`: the stream, the read buffer, the size of the read window, and the write buffer. -/
structure Codec (σ : Type) where
  stream : σ
  readBuf : List UInt8
  readWindow : Nat
  writeBuf : List UInt8

variable {σ M : Type} [Message M]

/-- `Codec::new`. -/
def Codec.new (stream : σ) (readBufSize : Nat) : Codec σ := ⟨stream, [], readBufSize, []⟩

/-- `encode_length_delimited`: the encoding after its length as a varint. Encoding into a buffer
that grows does not fail. -/
def encodeLengthDelimited (message : M) : List UInt8 :=
  let buf := Message.encode message
  Varint.encode (UInt64.ofNat buf.length) ++ buf

/-- `decode_length_delimited`: a message, or `None` while the buffer holds too little of one, and
the buffer after it. -/
def decodeLengthDelimited (src : List UInt8) : Except Error (Option M) × List UInt8 :=
  let srcLen := src.length
  match Varint.decode src with
  | none =>
    -- a partial length delimiter, unless the buffer is longer than any varint
    if srcLen ≤ maxVarintLength then (.ok none, src)
    else (.error (.decode ⟨"invalid varint"⟩), src)
  | some (encodedLen, tmp) =>
    if tmp.length < encodedLen.toNat then (.ok none, src)
    else
      -- the buffer is advanced before the body is decoded
      let delimLen := srcLen - tmp.length
      let src := src.drop (delimLen + encodedLen.toNat)
      match Message.decode (tmp.take encodedLen.toNat) with
      | .ok res => (.ok (some res), src)
      | .error e => (.error (.decode e), src)

/-- A round of the loop of `Codec::next`: decode from the read buffer, or read more into it. A
read of more bytes than the window holds panics on the slice of the window. -/
def nextBody (rs : ReadWrite σ) (_ : Nat) (self : Codec σ) :
    Option (Loop.Step (Codec σ) (Option (Except Error M) × Codec σ)) :=
  match decodeLengthDelimited self.readBuf with
  | (.ok (some incoming), readBuf) => some (.done (some (.ok incoming), { self with readBuf }))
  | (.error e, readBuf) => some (.done (some (.error e), { self with readBuf }))
  | (.ok none, _) =>
    match rs.read self.stream self.readWindow with
    | .error e => some (.done (some (.error (.io e)), self))
    | .ok (bytesRead, stream) =>
      if bytesRead.isEmpty then some (.done (none, { self with stream }))
      else if self.readWindow < bytesRead.length then none
      else some (.next { self with stream, readBuf := self.readBuf ++ bytesRead })

/-- `Codec::next`, for at most `fuel` rounds of its loop. -/
def Codec.next (rs : ReadWrite σ) (fuel : Nat) (self : Codec σ) :
    Option (Loop.Step (Codec σ) (Option (Except Error M) × Codec σ)) :=
  Loop.run (nextBody rs) fuel 0 self

/-- The items of successive calls of `Codec::next`, each run for at most `fuel` rounds, up to the
first `None`; `none` when a call panics, spends its fuel, or `calls` are not enough. -/
def Codec.items (rs : ReadWrite σ) (fuel : Nat) : Nat → Codec σ → Option (List (Except Error M))
  | 0, _ => none
  | calls + 1, self =>
    match Codec.next rs fuel self with
    | some (.done (none, _)) => some []
    | some (.done (some item, self)) => (Codec.items rs fuel calls self).map (item :: ·)
    | _ => none

/-- A round of the loop of `Codec::send`: while the write buffer is not empty, offer it to the
stream and drop what the stream took. Advancing past the end of the buffer panics. -/
def sendBody (ws : ReadWrite σ) (_ : Nat) (self : Codec σ) :
    Option (Loop.Step (Codec σ) (Except Error Unit × Codec σ)) :=
  if self.writeBuf.isEmpty then some (.done (.ok (), self))
  else
    match ws.write self.stream self.writeBuf with
    | .error e => some (.done (.error (.io e), self))
    | .ok (bytesWritten, stream) =>
      if bytesWritten = 0 then
        some (.done (.error (.io ⟨.writeZero, "failed to write to underlying stream"⟩),
          { self with stream }))
      else if self.writeBuf.length < bytesWritten then none
      else some (.next { self with stream, writeBuf := self.writeBuf.drop bytesWritten })

/-- `Codec::send`: the result and the codec after it. Every round of the loop that goes round
takes a byte from the write buffer, so one round more than the buffer's bytes is enough for the
loop to end. -/
def Codec.send (ws : ReadWrite σ) (self : Codec σ) (message : M) :
    Option (Except Error Unit × Codec σ) :=
  let self := { self with writeBuf := self.writeBuf ++ encodeLengthDelimited message }
  match Loop.run (sendBody ws) (self.writeBuf.length + 1) 0 self with
  | some (.done (.ok (), self)) =>
    match ws.flush self.stream with
    | .ok stream => some (.ok (), { self with stream })
    | .error e => some (.error (.io e), self)
  | some (.done (.error e, self)) => some (.error e, self)
  | _ => none

/-- The messages sent in turn, up to the first error. -/
def Codec.sendAll (ws : ReadWrite σ) (self : Codec σ) : List M → Option (Except Error Unit × Codec σ)
  | [] => some (.ok (), self)
  | message :: messages =>
    match Codec.send ws self message with
    | some (.ok (), self) => Codec.sendAll ws self messages
    | r => r

/-! ## Decoding frames -/

section Decode

variable [LawfulMessage M]

theorem toNat_length_encode (m : M) :
    (UInt64.ofNat (Message.encode m).length).toNat = (Message.encode m).length :=
  UInt64.toNat_ofNat_of_lt' (LawfulMessage.length_encode_lt m)

/-- A buffer that starts with a whole frame decodes its message and leaves what follows. -/
theorem decodeLengthDelimited_frame_append (m : M) (rest : List UInt8) :
    decodeLengthDelimited (encodeLengthDelimited m ++ rest) = (.ok (some m), rest) := by
  have hv := Varint.decode_encode_append (UInt64.ofNat (Message.encode m).length)
    (Message.encode m ++ rest)
  simp only [encodeLengthDelimited, List.append_assoc] at hv ⊢
  have hdrop : List.drop
      ((Varint.encode (UInt64.ofNat (Message.encode m).length) ++ (Message.encode m ++ rest)).length -
        (Message.encode m ++ rest).length + (Message.encode m).length)
      (Varint.encode (UInt64.ofNat (Message.encode m).length) ++ (Message.encode m ++ rest)) = rest := by
    rw [← List.append_assoc, List.drop_left' (by simp)]
  simp only [decodeLengthDelimited, hv, toNat_length_encode, hdrop]
  rw [if_neg (by simp), List.take_left' rfl, LawfulMessage.decode_encode]

/-- A buffer that holds a proper prefix of a frame, inside its length or inside its body, is
waited on: the decoder asks for more and leaves the buffer as it is. -/
theorem decodeLengthDelimited_of_prefix {m : M} {pre : List UInt8}
    (hp : pre <+: encodeLengthDelimited m) (hne : pre ≠ encodeLengthDelimited m) :
    decodeLengthDelimited (M := M) pre = (.ok none, pre) := by
  by_cases hlen : Varint.encode (UInt64.ofNat (Message.encode m).length) <+: pre
  · -- the length is whole: the body is a proper prefix of the encoding
    obtain ⟨t, rfl⟩ := hlen
    have ht : t <+: Message.encode m := (List.prefix_append_right_inj _).mp hp
    have hlt : t.length < (Message.encode m).length :=
      lt_of_le_of_ne ht.length_le fun h => hne (by rw [ht.eq_of_length h]; rfl)
    simp only [decodeLengthDelimited, Varint.decode_encode_append, toNat_length_encode]
    rw [if_pos hlt]
  · -- the buffer ends inside the length
    have hpre : pre <+: Varint.encode (UInt64.ofNat (Message.encode m).length) :=
      (List.prefix_or_prefix_of_prefix hp (List.prefix_append _ _)).resolve_right hlen
    have hshort : pre.length ≤ maxVarintLength :=
      calc pre.length ≤ (Varint.encode (UInt64.ofNat (Message.encode m).length)).length :=
            hpre.length_le
        _ ≤ 10 := Varint.length_encode_le _
        _ ≤ maxVarintLength := by decide
    have hnone : Varint.decode pre = none :=
      Varint.decode_of_prefix hpre fun h => hlen (h ▸ List.prefix_refl _)
    simp only [decodeLengthDelimited, hnone, if_pos hshort]

end Decode

/-! ## Reading -/

/-- The stream delivers `parts` from state `s`: its reads into a window of `window` bytes return the
parts in turn and then nothing. Every part is non-empty, as a read of nothing is the end of the
stream, and fits the window. -/
inductive Delivers (rs : ReadWrite σ) (window : Nat) : σ → List (List UInt8) → Prop
  | eof {s s' : σ} : rs.read s window = .ok ([], s') → Delivers rs window s []
  | read {s s' : σ} {part : List UInt8} {parts : List (List UInt8)} :
      rs.read s window = .ok (part, s') → part ≠ [] → part.length ≤ window →
      Delivers rs window s' parts → Delivers rs window s (part :: parts)

/-- The codec has `bytes` still to decode: its buffer, then the parts its stream delivers. -/
structure Pending (rs : ReadWrite σ) (codec : Codec σ) (parts : List (List UInt8))
    (bytes : List UInt8) : Prop where
  delivers : Delivers rs codec.readWindow codec.stream parts
  buf_append : codec.readBuf ++ parts.flatten = bytes

section Read

variable {rs : ReadWrite σ} {self : Codec σ} {parts : List (List UInt8)} {bytes : List UInt8}

/-- A round that finds too little in the buffer reads the next part into it. -/
theorem nextBody_of_read {part : List UInt8} {b : List UInt8} (n : Nat)
    (hdec : decodeLengthDelimited (M := M) self.readBuf = (.ok none, b))
    (hp : Pending rs self (part :: parts) bytes) :
    ∃ self', nextBody (M := M) rs n self = some (.next self') ∧ Pending rs self' parts bytes := by
  cases hp.delivers with
  | read hread hne hle hd =>
    refine ⟨{ self with stream := _, readBuf := self.readBuf ++ part }, ?_, ⟨hd, ?_⟩⟩
    · simp only [nextBody, hdec, hread, List.isEmpty_iff, hne, if_false, Nat.not_lt.mpr hle]
    · rw [← hp.buf_append, List.flatten_cons, List.append_assoc]

/-- A round that finds too little in the buffer at the end of the stream returns `None`. -/
theorem nextBody_of_eof {b : List UInt8} (n : Nat)
    (hdec : decodeLengthDelimited (M := M) self.readBuf = (.ok none, b))
    (hp : Pending rs self [] bytes) :
    ∃ self', nextBody (M := M) rs n self = some (.done (none, self')) := by
  cases hp.delivers with
  | eof hread =>
    simp only [nextBody, hdec, hread, List.isEmpty_nil, if_true]
    exact ⟨_, rfl⟩

/-- At the end of what is pending, a call of `next` returns `None`: every part is non-empty, so
nothing is left to deliver and the buffer is empty. -/
theorem next_of_pending_nil {fuel : Nat} (hfuel : 0 < fuel) (hp : Pending rs self parts []) :
    ∃ self', Codec.next (M := M) rs fuel self = some (.done (none, self')) := by
  obtain ⟨fuel, rfl⟩ : ∃ f, fuel = f + 1 := ⟨fuel - 1, by omega⟩
  have ⟨hbuf, hflat⟩ := List.append_eq_nil_iff.mp hp.buf_append
  have hparts : parts = [] := by
    cases hp.delivers with
    | eof _ => rfl
    | read _ hne _ _ => exact absurd (List.flatten_eq_nil_iff.mp hflat _ List.mem_cons_self) hne
  have hdec : decodeLengthDelimited (M := M) self.readBuf = (.ok none, []) := by
    simp only [hbuf, decodeLengthDelimited, Varint.decode, Varint.decodeLoop, Option.map_none]
    rfl
  obtain ⟨self', hbody⟩ := nextBody_of_eof 0 hdec (hparts ▸ hp)
  exact ⟨self', Loop.run_succ_of_done hbody⟩

variable [LawfulMessage M]

variable {m : M} {rest : List UInt8}

/-- A round whose buffer holds a whole frame returns its message, and what follows the frame is
still pending. -/
theorem run_nextBody_of_whole (fuel n : Nat)
    (hp : Pending rs self parts (encodeLengthDelimited m ++ rest))
    (hwhole : encodeLengthDelimited m <+: self.readBuf) :
    ∃ self', Loop.run (nextBody rs) (fuel + 1) n self = some (.done (some (.ok m), self')) ∧
      Pending rs self' parts rest := by
  obtain ⟨t, ht⟩ := hwhole
  have hbody : nextBody rs n self = some (.done (some (.ok m), { self with readBuf := t })) := by
    simp only [nextBody, ← ht, decodeLengthDelimited_frame_append]
  refine ⟨_, Loop.run_succ_of_done hbody, ⟨hp.delivers, ?_⟩⟩
  have hbuf := hp.buf_append
  rw [← ht, List.append_assoc] at hbuf
  exact List.append_cancel_left hbuf

/-- A buffer that does not yet hold the whole pending frame is a proper prefix of it, which the
decoder waits on. -/
theorem decodeLengthDelimited_of_pending (hp : Pending rs self parts (encodeLengthDelimited m ++ rest))
    (hwhole : ¬encodeLengthDelimited m <+: self.readBuf) :
    decodeLengthDelimited (M := M) self.readBuf = (.ok none, self.readBuf) := by
  have hbuf : self.readBuf <+: encodeLengthDelimited m ++ rest :=
    hp.buf_append ▸ List.prefix_append _ _
  have hpre : self.readBuf <+: encodeLengthDelimited m :=
    (List.prefix_or_prefix_of_prefix hbuf (List.prefix_append _ _)).resolve_right hwhole
  exact decodeLengthDelimited_of_prefix hpre fun h => hwhole (h ▸ List.prefix_refl _)

/-- One call of `next` over a pending frame: it reads part after part until the buffer holds the
whole frame, then returns its message, with what follows still pending. The induction is on the
parts still to be delivered; the fuel needs to exceed their number. -/
theorem run_nextBody_frame :
    ∀ (parts : List (List UInt8)) (self : Codec σ) (fuel n : Nat),
      parts.length < fuel → Pending rs self parts (encodeLengthDelimited m ++ rest) →
      ∃ self' parts', Loop.run (nextBody rs) fuel n self = some (.done (some (.ok m), self')) ∧
        Pending rs self' parts' rest ∧ parts'.length ≤ parts.length := by
  intro parts
  induction parts with
  | nil =>
    intro self fuel n hfuel hp
    obtain ⟨fuel, rfl⟩ : ∃ f, fuel = f + 1 := ⟨fuel - 1, by simp at hfuel; omega⟩
    -- at the end of the stream the buffer holds everything pending
    have hwhole : encodeLengthDelimited m <+: self.readBuf := by
      have hbuf := hp.buf_append
      rw [List.flatten_nil, List.append_nil] at hbuf
      exact hbuf ▸ List.prefix_append _ _
    obtain ⟨self', hrun, hp'⟩ := run_nextBody_of_whole fuel n hp hwhole
    exact ⟨self', [], hrun, hp', le_rfl⟩
  | cons part parts ih =>
    intro self fuel n hfuel hp
    obtain ⟨fuel, rfl⟩ : ∃ f, fuel = f + 1 := ⟨fuel - 1, by simp at hfuel; omega⟩
    by_cases hwhole : encodeLengthDelimited m <+: self.readBuf
    · obtain ⟨self', hrun, hp'⟩ := run_nextBody_of_whole fuel n hp hwhole
      exact ⟨self', part :: parts, hrun, hp', le_rfl⟩
    · -- too little in the buffer: the round reads the next part
      obtain ⟨self₁, hbody, hp₁⟩ :=
        nextBody_of_read n (decodeLengthDelimited_of_pending hp hwhole) hp
      obtain ⟨self', parts', hrun, hp', hlen⟩ :=
        ih self₁ fuel (n + 1) (by simp at hfuel; omega) hp₁
      refine ⟨self', parts', ?_, hp', ?_⟩
      · rw [Loop.run_succ_of_next hbody, hrun]
      · simp only [List.length_cons]
        omega

/-- Successive calls of `next` over pending frames return their messages in turn, then `None`.
The induction is on the messages; each call has fuel for every part still to come. -/
theorem items_of_pending {fuel : Nat} :
    ∀ (ms : List M) (self : Codec σ) (parts : List (List UInt8)), parts.length < fuel →
      Pending rs self parts (ms.map encodeLengthDelimited).flatten →
      Codec.items rs fuel (ms.length + 1) self = some (ms.map .ok)
  | [], self, parts, hfuel, hp => by
    obtain ⟨self', hnext⟩ := next_of_pending_nil (M := M) (Nat.zero_lt_of_lt hfuel) hp
    simp only [Codec.items, hnext, List.map_nil]
  | m :: ms, self, parts, hfuel, hp => by
    rw [List.map_cons, List.flatten_cons] at hp
    obtain ⟨self', parts', hnext, hp', hlen⟩ := run_nextBody_frame parts self fuel 0 hfuel hp
    have hrest : Codec.items rs fuel (ms.length + 1) self' = some (ms.map .ok) :=
      items_of_pending ms self' parts' (by omega) hp'
    simp only [Codec.items, Codec.next, hnext, hrest, List.length_cons, Option.map_some,
      List.map_cons]

end Read

/-! ## Writing -/

/-- A writer that takes at least one and at most all of the bytes of every non-empty write and does
not fail, and whose flush keeps what it was given: `content` is what it has been given. -/
structure ReadWrite.Accepting (ws : ReadWrite σ) (content : σ → List UInt8) : Prop where
  write : ∀ s buf, buf ≠ [] → ∃ n s', ws.write s buf = .ok (n, s') ∧ 0 < n ∧ n ≤ buf.length ∧
    content s' = content s ++ buf.take n
  flush : ∀ s, ∃ s', ws.flush s = .ok s' ∧ content s' = content s

section Write

variable {ws : ReadWrite σ} {content : σ → List UInt8} (hws : ws.Accepting content)
include hws

/-- The loop of `Codec::send` gives an accepting writer the whole write buffer. Each round that
goes round drops at least one byte, so fuel beyond the buffer's length is enough; the induction
is on the fuel. -/
theorem run_sendBody : ∀ (fuel n : Nat) (self : Codec σ), self.writeBuf.length < fuel →
    ∃ stream, Loop.run (sendBody ws) fuel n self =
        some (.done (.ok (), { self with stream, writeBuf := [] })) ∧
      content stream = content self.stream ++ self.writeBuf
  | 0, _, _, hfuel => absurd hfuel (Nat.not_lt_zero _)
  | fuel + 1, n, self, hfuel => by
    by_cases hw : self.writeBuf = []
    · refine ⟨self.stream, Loop.run_succ_of_done ?_, by rw [hw, List.append_nil]⟩
      simp only [sendBody, hw, List.isEmpty_nil, if_true]
      cases self
      subst hw
      rfl
    · obtain ⟨k, s', hwrite, hpos, hle, hcontent⟩ := hws.write self.stream self.writeBuf hw
      have hbody : sendBody ws n self =
          some (.next { self with stream := s', writeBuf := self.writeBuf.drop k }) := by
        simp only [sendBody, List.isEmpty_iff, hw, if_false, hwrite, Nat.pos_iff_ne_zero.mp hpos,
          Nat.not_lt.mpr hle]
      have hfuel' : (self.writeBuf.drop k).length < fuel := by
        rw [List.length_drop]
        omega
      obtain ⟨stream, hrun, hstream⟩ :=
        run_sendBody fuel (n + 1) { self with stream := s', writeBuf := self.writeBuf.drop k } hfuel'
      refine ⟨stream, by rw [Loop.run_succ_of_next hbody, hrun], ?_⟩
      rw [hstream, hcontent, List.append_assoc, List.take_append_drop]

/-- `Codec::send` gives an accepting writer what was left to write and the message's frame, and
empties the write buffer. -/
theorem send_writes_frame (self : Codec σ) (m : M) :
    ∃ stream, Codec.send ws self m = some (.ok (), { self with stream, writeBuf := [] }) ∧
      content stream = content self.stream ++ self.writeBuf ++ encodeLengthDelimited m := by
  obtain ⟨stream, hrun, hstream⟩ := run_sendBody hws (self.writeBuf ++ encodeLengthDelimited m).length.succ 0
    { self with writeBuf := self.writeBuf ++ encodeLengthDelimited m } (Nat.lt_succ_self _)
  obtain ⟨stream', hflush, hstream'⟩ := hws.flush stream
  refine ⟨stream', ?_, by rw [hstream', hstream, List.append_assoc]⟩
  simp only [Codec.send, hrun, hflush]

/-- `Codec::send` of messages in turn, from an empty write buffer, gives an accepting writer
their frames one after the other. -/
theorem sendAll_writes_frames :
    ∀ (ms : List M) (self : Codec σ), self.writeBuf = [] →
      ∃ stream, Codec.sendAll ws self ms = some (.ok (), { self with stream }) ∧
        content stream = content self.stream ++ (ms.map encodeLengthDelimited).flatten
  | [], self, _ => ⟨self.stream, rfl, by simp⟩
  | m :: ms, self, hw => by
    obtain ⟨stream, hsend, hstream⟩ := send_writes_frame hws self m
    obtain ⟨stream', hrest, hstream'⟩ :=
      sendAll_writes_frames ms { self with stream, writeBuf := [] } rfl
    refine ⟨stream', ?_, ?_⟩
    · simp only [Codec.sendAll, hsend, hw]
      exact hrest
    · rw [hstream', hstream, hw, List.append_nil, List.map_cons, List.flatten_cons,
        List.append_assoc]

end Write

/-- A stream over memory: its reads return the parts it holds in turn, and then nothing; a write
takes every byte and appends them to the bytes written. -/
def memoryStream : ReadWrite (List UInt8 × List (List UInt8)) where
  read s _ :=
    match s with
    | (written, []) => .ok ([], (written, []))
    | (written, part :: parts) => .ok (part, (written, parts))
  write s buf := .ok (buf.length, (s.1 ++ buf, s.2))
  flush s := .ok s

/-- The memory stream takes every byte of every write, and its written bytes are what it was
given. -/
theorem memoryStream_accepting : memoryStream.Accepting Prod.fst where
  write s buf hne := ⟨buf.length, (s.1 ++ buf, s.2), rfl, List.length_pos_of_ne_nil hne, le_rfl,
    by rw [List.take_length]⟩
  flush s := ⟨s, rfl, rfl⟩

/-- The memory stream delivers the parts it holds, when each is non-empty and fits the window. -/
theorem delivers_memoryStream (written : List UInt8) {window : Nat} :
    ∀ parts : List (List UInt8), (∀ part ∈ parts, part ≠ [] ∧ part.length ≤ window) →
      Delivers memoryStream window (written, parts) parts
  | [], _ => .eof rfl
  | part :: parts, h =>
    have hrest := delivers_memoryStream written parts fun p hp => h p (List.mem_cons_of_mem _ hp)
    .read rfl (h part List.mem_cons_self).1 (h part List.mem_cons_self).2 hrest

/-! ## Framing -/

/-- The codec frames messages losslessly. Sending them in turn to an accepting writer gives it
their frames one after the other; and whichever non-empty parts of at most the read window a
reader delivers those frames in, successive calls of `next` return the messages in turn and then
`None`, never an error for a frame that a read has split. -/
theorem codec_frames_messages_losslessly [LawfulMessage M] {τ : Type} (ws : ReadWrite σ)
    (content : σ → List UInt8) (hws : ws.Accepting content) (s : σ) (rs : ReadWrite τ) (r : τ)
    (window : Nat) (ms : List M) (parts : List (List UInt8)) (hparts : Delivers rs window r parts)
    (hsplit : parts.flatten = (ms.map encodeLengthDelimited).flatten) :
    (∃ self, Codec.sendAll ws (Codec.new s window) ms = some (.ok (), self) ∧
        content self.stream = content s ++ (ms.map encodeLengthDelimited).flatten) ∧
      Codec.items rs (parts.length + 1) (ms.length + 1) (Codec.new r window) = some (ms.map .ok) := by
  constructor
  · obtain ⟨stream, hsend, hstream⟩ := sendAll_writes_frames hws ms (Codec.new s window) rfl
    exact ⟨_, hsend, hstream⟩
  · have hp : Pending rs (Codec.new r window) parts (ms.map encodeLengthDelimited).flatten :=
      ⟨hparts, by rw [← hsplit]; rfl⟩
    exact items_of_pending ms _ parts (Nat.lt_succ_self _) hp

/-- A message of one byte, encoded as itself. -/
instance byteMessage : Message UInt8 where
  encode b := [b]
  decode
    | [b] => .ok b
    | _ => .error ⟨"not one byte"⟩

instance lawfulByteMessage : LawfulMessage UInt8 where
  decode_encode _ := rfl
  length_encode_lt _ := show 1 < 2 ^ 64 by norm_num

theorem codec_frames_two_bytes_read_in_three_parts :
    (∃ self, Codec.sendAll memoryStream (Codec.new ([], []) 2) [(5 : UInt8), 7] = some (.ok (), self) ∧
        self.stream.1 = [] ++ ([(5 : UInt8), 7].map encodeLengthDelimited).flatten) ∧
      Codec.items memoryStream ([[1], [5, 1], [7]].length + 1) ([(5 : UInt8), 7].length + 1)
          (Codec.new ([], [[1], [5, 1], [7]]) 2) = some ([(5 : UInt8), 7].map .ok) :=
  codec_frames_messages_losslessly memoryStream Prod.fst memoryStream_accepting ([], []) memoryStream
    ([], [[1], [5, 1], [7]]) 2 [(5 : UInt8), 7] [[1], [5, 1], [7]]
    (delivers_memoryStream [] _ (by decide)) (by decide)

end Abci

end Tendermint
