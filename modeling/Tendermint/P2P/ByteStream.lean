import Tendermint.Lib.Stream
import Tendermint.P2P.SecretConnection

/-!
# The secret connection as a byte stream

One direction of a connection split into its halves (`SecretConnection::split`): the `Sender` of one
peer writes sealed frames to the I/O handler and the `Receiver` of the other reads them, the two
calls interleaved in any order. `Pipe` is that system: the two halves and the bytes in flight
between them. A read waits for bytes to arrive; the model takes only the steps that succeed, so a
read of an empty pipe is simply not taken.

The specification is the queue of `Stream`. The pipe simulates it for reads into buffers of at least
`DATA_MAX_SIZE` bytes (`pipe_simulates_queue`), under the relation `Pipe.Carries`: the two halves
share the key and are live, the receive buffer is empty, and the bytes in flight are the sealed
frames (`Sealed`) of chunks that make up the queue, under the nonces from the receiver's to the
sender's. Along every interleaving, what the reads return is then, in order, what was written
(`pipe_delivers_written_bytes`), and such a read never panics (`pipe_large_read_never_panics`).
A shorter read panics as soon as a chunk does not fit (`readAndDecrypt_short_buffer_panics`).
-/

namespace Tendermint

namespace P2P

open Stream

variable {Key : Type} (aead : Aead Key)

/-- The sealed frames of `chunks` under `key`, with the nonces from `nonce` on, `nonce'` being the
one after the last: what a writer sends and what a reader of the key expects. Each chunk holds at
least one byte and at most `DATA_MAX_SIZE`. -/
inductive Sealed (key : Key) : Nonce → List Bytes → Bytes → Nonce → Prop
  | nil (nonce : Nonce) : Sealed key nonce [] [] nonce
  | cons {nonce nonce₁ nonce' : Nonce} {chunk ct tag rest : Bytes} {chunks : List Bytes} :
      chunk ≠ [] → chunk.length ≤ dataMaxSize →
      aead.encrypt key nonce (frame chunk) = .ok (ct, tag) → nonce.increment = some nonce₁ →
      Sealed key nonce₁ chunks rest nonce' →
      Sealed key nonce (chunk :: chunks) (ct ++ tag ++ rest) nonce'

/-- One direction of a connection: one peer's `Sender`, the bytes it wrote that the other peer's
`Receiver` has not read, and that `Receiver`. -/
structure Pipe (Key : Type) where
  sender : Sender Key
  channel : Bytes
  receiver : Receiver Key

/-- The pipe of a new connection (`SecretConnection::new`, then `split`): the ends hold the keys of
their ciphers and the default nonce, and nothing is in flight. -/
def Pipe.new (sendCipher recvCipher : Key) : Pipe Key :=
  ⟨⟨⟨sendCipher, .default⟩, false⟩, [], ⟨⟨recvCipher, .default, []⟩, false⟩⟩

/-- A step of the pipe: the sender writes a buffer, or the receiver reads into one of a given
size. -/
def Pipe.step (self : Pipe Key) :
    Queue.Event UInt8 → Option (Except IoError (Queue.Output UInt8) × Pipe Key)
  | .write buf => (self.sender.write aead self.channel buf).map
      fun (result, sender, channel) => (result.map .written, { self with sender, channel })
  | .read dataLen => (self.receiver.read aead self.channel dataLen).map
      fun (result, receiver, channel) => (result.map .read, { self with receiver, channel })

/-- Writes, and reads into buffers of at least `DATA_MAX_SIZE` bytes. -/
def LargeRead : Queue.Event UInt8 → Prop
  | .write _ => True
  | .read dataLen => dataMaxSize ≤ dataLen

/-- The pipe carries the bytes `q`: its ends share the key and are live, the receive buffer is
empty, and the bytes in flight are the sealed frames of chunks that make up `q`, from the
receiver's nonce to the sender's. -/
structure Pipe.Carries (pipe : Pipe Key) (q : Bytes) : Prop where
  cipher : pipe.sender.state.cipher = pipe.receiver.state.cipher
  sender_live : pipe.sender.terminate = false
  receiver_live : pipe.receiver.terminate = false
  buffer : pipe.receiver.state.buffer = []
  sealed : ∃ chunks, Sealed aead pipe.receiver.state.cipher pipe.receiver.state.nonce chunks
    pipe.channel pipe.sender.state.nonce ∧ chunks.flatten = q

variable {aead}

/-! ## Sealed frames -/

section Sealed

variable {key : Key} {nonce nonce' nonce'' : Nonce} {chunks chunks' : List Bytes} {wire wire' : Bytes}

theorem Sealed.append (h : Sealed aead key nonce chunks wire nonce')
    (h' : Sealed aead key nonce' chunks' wire' nonce'') :
    Sealed aead key nonce (chunks ++ chunks') (wire ++ wire') nonce'' := by
  induction h with
  | nil => exact h'
  | cons hne hc he hinc _ ih =>
    simpa only [List.cons_append, List.append_assoc] using Sealed.cons hne hc he hinc (ih h')

/-- Sealed frames whose chunks make up nothing are no frames. -/
theorem Sealed.eq_nil (h : Sealed aead key nonce chunks wire nonce') (hq : chunks.flatten = []) :
    chunks = [] ∧ wire = [] := by
  cases h with
  | nil => exact ⟨rfl, rfl⟩
  | cons hne => exact absurd (List.append_eq_nil_iff.mp hq).1 hne

theorem Sealed.head {chunk : Bytes} (h : Sealed aead key nonce (chunk :: chunks) wire nonce') :
    chunk ≠ [] ∧ chunk.length ≤ dataMaxSize := by
  cases h with
  | cons hne hc => exact ⟨hne, hc⟩

/-- The loop of `encrypt_and_write` does not panic while the nonce does not overflow. -/
theorem encryptAndWrite.loop_eq_ok (hlaw : aead.Lawful) :
    ∀ {chunks : List Bytes} {n : Nat} {io : Bytes} {s : SendState Key},
      (∀ c ∈ chunks, c ≠ [] ∧ c.length ≤ dataMaxSize) →
      s.nonce.counter.toNat + chunks.length < 2 ^ 64 →
      ∃ n' io' s', loop aead chunks n io s = some (.ok (n', io', s'))
  | [], n, io, s, _, _ => ⟨n, io, s, rfl⟩
  | chunk :: chunks, n, io, s, hcs, hcount => by
    obtain ⟨hne, hc⟩ := hcs chunk List.mem_cons_self
    obtain ⟨ct, tag, he⟩ := hlaw.encrypt_ok s.cipher s.nonce (frame chunk)
    simp only [List.length_cons] at hcount
    obtain ⟨nonce₁, hinc, hcounter⟩ := Nonce.exists_increment (n := s.nonce) (by omega)
    rw [loop_cons_eq hne hc he, hinc, Option.bind_some]
    exact loop_eq_ok hlaw (fun c hc => hcs c (List.mem_cons_of_mem _ hc)) (by dsimp only; omega)

/-- A write that succeeds sends the sealed frames of its chunks and counts their bytes. -/
theorem encryptAndWrite.loop_sealed (hlaw : aead.Lawful) :
    ∀ {chunks : List Bytes} {n n' : Nat} {io io' : Bytes} {s s' : SendState Key},
      (∀ c ∈ chunks, c ≠ [] ∧ c.length ≤ dataMaxSize) →
      loop aead chunks n io s = some (.ok (n', io', s')) →
      n' = n + chunks.flatten.length ∧ s'.cipher = s.cipher ∧
        ∃ frames, io' = io ++ frames ∧ Sealed aead s.cipher s.nonce chunks frames s'.nonce
  | [], n, n', io, io', s, s', _, h => by
    simp only [loop, pure, Option.some.injEq, Except.ok.injEq, Prod.mk.injEq] at h
    obtain ⟨rfl, rfl, rfl⟩ := h
    exact ⟨by simp, rfl, [], by simp, .nil _⟩
  | chunk :: chunks, n, n', io, io', s, s', hcs, h => by
    obtain ⟨hne, hc⟩ := hcs chunk List.mem_cons_self
    obtain ⟨ct, tag, nonce₁, he, hinc, h⟩ := loop_cons_eq_some hlaw hne hc h
    -- the rest of the loop runs from the next nonce, on the stream with this frame
    obtain ⟨hn, hcipher, frames, rfl, hs⟩ :=
      loop_sealed hlaw (fun c hc => hcs c (List.mem_cons_of_mem _ hc)) h
    refine ⟨by simp only [hn, List.flatten_cons, List.length_append]; omega, hcipher,
      ct ++ tag ++ frames, by simp, .cons hne hc he hinc hs⟩

/-- `encrypt_and_write`, when it succeeds, sends the sealed frames of the chunks of its data and
reports the data's length. -/
theorem encryptAndWrite_sealed (hlaw : aead.Lawful) {io io' buf : Bytes} {n : Nat}
    {s s' : SendState Key} (h : encryptAndWrite aead io s buf = some (.ok (n, io', s'))) :
    n = buf.length ∧ s'.cipher = s.cipher ∧
      ∃ frames, io' = io ++ frames ∧
        Sealed aead s.cipher s.nonce (Slice.chunks dataMaxSize buf) frames s'.nonce := by
  have hsize : 0 < dataMaxSize := by decide
  obtain ⟨hn, hcipher, hframes⟩ :=
    encryptAndWrite.loop_sealed hlaw (fun c hc => Slice.mem_chunks hsize hc) h
  exact ⟨by rw [hn, Slice.flatten_chunks hsize, Nat.zero_add], hcipher, hframes⟩

/-- A read into an empty receive buffer, of at least the first chunk's length, of sealed frames:
the first chunk, and the frames of the others. -/
theorem readAndDecrypt_of_sealed (hlaw : aead.Lawful) {chunk : Bytes} {dataLen : Nat}
    (h : Sealed aead key nonce (chunk :: chunks) wire nonce') (hlen : chunk.length ≤ dataLen) :
    ∃ nonce₁ rest, readAndDecrypt aead wire ⟨key, nonce, []⟩ dataLen =
      some (.ok (chunk, rest, ⟨key, nonce₁, []⟩)) ∧ Sealed aead key nonce₁ chunks rest nonce' := by
  cases h with
  | cons _ hc he hinc hs =>
    exact ⟨_, _, by rw [readAndDecrypt_sealed hlaw hc he hinc, if_pos hlen], hs⟩

/-- A read of an empty stream into an empty buffer ends in `UnexpectedEof`. -/
theorem readAndDecrypt_nil (key : Key) (nonce : Nonce) (dataLen : Nat) :
    readAndDecrypt aead [] ⟨key, nonce, []⟩ dataLen = some (.error .unexpectedEof) := by
  simp [readAndDecrypt, tagSize, totalFrameSize]

end Sealed

/-! ## The steps of the pipe -/

section Steps

variable {self self' : Pipe Key} {buf : Bytes} {dataLen : Nat} {o : Queue.Output UInt8}

/-- A write of a live sender: the write, whose error terminates the sender. -/
theorem Pipe.step_write (hlive : self.sender.terminate = false) :
    self.step aead (.write buf) =
      (encryptAndWrite aead self.channel self.sender.state buf).map fun
        | .ok (n, channel, state) =>
          (.ok (.written n), { self with sender := ⟨state, false⟩, channel })
        | .error e => (.error e, { self with sender := ⟨self.sender.state, true⟩ }) := by
  obtain ⟨⟨state, terminate⟩, channel, receiver⟩ := self
  dsimp only at hlive
  subst hlive
  rcases hw : encryptAndWrite aead channel state buf with _ | (e | ⟨n, channel', state'⟩) <;>
    simp [Pipe.step, Sender.write, checkedIo, hw, Except.map]

/-- A read of a live receiver: the read, whose error terminates the receiver. -/
theorem Pipe.step_read (hlive : self.receiver.terminate = false) :
    self.step aead (.read dataLen) =
      (readAndDecrypt aead self.channel self.receiver.state dataLen).map fun
        | .ok (out, channel, state) =>
          (.ok (.read out), { self with receiver := ⟨state, false⟩, channel })
        | .error e => (.error e, { self with receiver := ⟨self.receiver.state, true⟩ }) := by
  obtain ⟨sender, channel, ⟨state, terminate⟩⟩ := self
  dsimp only at hlive
  subst hlive
  rcases hr : readAndDecrypt aead channel state dataLen with _ | (e | ⟨out, channel', state'⟩) <;>
    simp [Pipe.step, Receiver.read, checkedIo, hr, Except.map]

theorem Pipe.step_write_eq_ok (h : self.step aead (.write buf) = some (.ok o, self')) :
    self.sender.terminate = false ∧ ∃ n channel state,
      encryptAndWrite aead self.channel self.sender.state buf = some (.ok (n, channel, state)) ∧
        o = .written n ∧ self' = { self with sender := ⟨state, false⟩, channel } := by
  simp only [Pipe.step, Sender.write, Option.map_map, Option.map_eq_some_iff] at h
  obtain ⟨⟨result, ⟨channel, state⟩, terminate⟩, hio, hret⟩ := h
  cases result with
  | error e => cases hret
  | ok n =>
    obtain ⟨hlive, hw, rfl⟩ := checkedIo_eq_ok.mp hio
    simp only [Function.comp_apply, Except.map, Prod.mk.injEq, Except.ok.injEq] at hret
    exact ⟨hlive, n, channel, state, hw, hret.1.symm, hret.2.symm⟩

theorem Pipe.step_read_eq_ok (h : self.step aead (.read dataLen) = some (.ok o, self')) :
    self.receiver.terminate = false ∧ ∃ out channel state,
      readAndDecrypt aead self.channel self.receiver.state dataLen =
        some (.ok (out, channel, state)) ∧
        o = .read out ∧ self' = { self with receiver := ⟨state, false⟩, channel } := by
  simp only [Pipe.step, Receiver.read, Option.map_map, Option.map_eq_some_iff] at h
  obtain ⟨⟨result, ⟨channel, state⟩, terminate⟩, hio, hret⟩ := h
  cases result with
  | error e => cases hret
  | ok out =>
    obtain ⟨hlive, hr, rfl⟩ := checkedIo_eq_ok.mp hio
    simp only [Function.comp_apply, Except.map, Prod.mk.injEq, Except.ok.injEq] at hret
    exact ⟨hlive, out, channel, state, hr, hret.1.symm, hret.2.symm⟩

end Steps

/-! ## Simulation of the queue -/

/-- A write keeps the pipe carrying what it carried, followed by what was written. -/
theorem Pipe.Carries.write (hlaw : aead.Lawful) {self self' : Pipe Key} {q buf : Bytes}
    {o : Queue.Output UInt8} (hR : self.Carries aead q)
    (h : self.step aead (.write buf) = some (.ok o, self')) :
    Queue.Step q (.write buf) o (q ++ buf) ∧ self'.Carries aead (q ++ buf) := by
  obtain ⟨-, n, channel, state, hw, rfl, rfl⟩ := Pipe.step_write_eq_ok h
  obtain ⟨rfl, hcipher, frames, rfl, hframes⟩ := encryptAndWrite_sealed hlaw hw
  obtain ⟨chunks, hs, rfl⟩ := hR.sealed
  refine ⟨.write _ buf, hR.cipher ▸ hcipher, rfl, hR.receiver_live, hR.buffer,
    chunks ++ Slice.chunks dataMaxSize buf, hs.append (hR.cipher ▸ hframes), ?_⟩
  rw [List.flatten_append, Slice.flatten_chunks (by decide)]

/-- The shape of a pipe that carries `q`. -/
theorem Pipe.Carries.eq_mk {pipe : Pipe Key} {q : Bytes} (hR : pipe.Carries aead q) :
    ∃ key nonce nonce' wire chunks,
      pipe = ⟨⟨⟨key, nonce'⟩, false⟩, wire, ⟨⟨key, nonce, []⟩, false⟩⟩ ∧
        Sealed aead key nonce chunks wire nonce' ∧ chunks.flatten = q := by
  obtain ⟨⟨⟨key, nonce'⟩, sterm⟩, wire, ⟨⟨key', nonce, buffer⟩, rterm⟩⟩ := pipe
  obtain ⟨hcipher, hslive, hrlive, hbuf, chunks, hs, rfl⟩ := hR
  dsimp only at hcipher hslive hrlive hbuf hs
  subst hcipher hslive hrlive hbuf
  exact ⟨key, nonce, nonce', wire, chunks, rfl, hs, rfl⟩

/-- A read into a buffer of at least `DATA_MAX_SIZE` bytes takes the first chunk in flight. -/
theorem Pipe.Carries.read (hlaw : aead.Lawful) {self self' : Pipe Key} {q : Bytes}
    {dataLen : Nat} {o : Queue.Output UInt8} (hR : self.Carries aead q)
    (hlen : dataMaxSize ≤ dataLen) (h : self.step aead (.read dataLen) = some (.ok o, self')) :
    ∃ q', Queue.Step q (.read dataLen) o q' ∧ self'.Carries aead q' := by
  obtain ⟨key, nonce, nonce', wire, chunks, rfl, hs, rfl⟩ := hR.eq_mk
  obtain ⟨-, out, channel, state, hr, rfl, rfl⟩ := Pipe.step_read_eq_ok h
  cases chunks with
  | nil =>
    -- nothing in flight: the read fails
    cases hs
    rw [readAndDecrypt_nil] at hr
    cases hr
  | cons chunk chunks =>
    obtain ⟨hne, hmax⟩ := hs.head
    have hc : chunk.length ≤ dataLen := Nat.le_trans hmax hlen
    obtain ⟨nonce₁, rest, hread, hs'⟩ := readAndDecrypt_of_sealed hlaw hs hc
    rw [hread] at hr
    simp only [Option.some.injEq, Except.ok.injEq, Prod.mk.injEq] at hr
    obtain ⟨rfl, rfl, rfl⟩ := hr
    exact ⟨chunks.flatten, .read dataLen (by simp [hne]) ⟨by simp, hc, fun _ => hne⟩,
      rfl, rfl, rfl, rfl, chunks, hs', rfl⟩

/-- The pipe simulates the queue, for writes and for reads into buffers of at least
`DATA_MAX_SIZE` bytes. -/
theorem pipe_simulates_queue (hlaw : aead.Lawful) :
    Simulation (Pipe.step aead) Queue.Step LargeRead (Pipe.Carries aead) where
  step := by
    intro self q e o self' hR hallowed h
    cases e with
    | write buf => exact ⟨_, hR.write hlaw h⟩
    | read dataLen => exact hR.read hlaw hallowed h

/-! ## The pipe as a byte stream -/

theorem Pipe.new_carries (key : Key) : (Pipe.new key key).Carries aead [] :=
  ⟨rfl, rfl, rfl, rfl, [], .nil _, rfl⟩

instance : DecidablePred LargeRead
  | .write _ => isTrue trivial
  | .read dataLen => inferInstanceAs (Decidable (dataMaxSize ≤ dataLen))

/-- Along every interleaving of writes and of reads into buffers of at least `DATA_MAX_SIZE` bytes
that succeed, from a new pipe whose ends hold one key: what the reads returned, followed by the
bytes still in flight, is what the writes wrote, in order; each read returned at least one byte and
at most its size, and each write reported the length of what it wrote. -/
theorem pipe_delivers_written_bytes (hlaw : aead.Lawful) (key : Key) {pipe : Pipe Key}
    {es : List (Queue.Event UInt8)} {os : List (Queue.Output UInt8)}
    (h : Trace (Succeeds (Pipe.step aead)) (Pipe.new key key) es os pipe)
    (hlarge : ∀ e ∈ es, LargeRead e) :
    ∃ q, pipe.Carries aead q ∧
      (os.map Queue.Output.data).flatten ++ q = (es.map Queue.Event.data).flatten ∧
      List.Forall₂ Queue.Answers es os := by
  obtain ⟨q, htrace, hR⟩ := (pipe_simulates_queue hlaw).trace h hlarge (Pipe.new_carries key)
  exact ⟨q, hR, by simpa using Queue.Trace.data htrace, Queue.Trace.answers htrace⟩

-- the concrete run evaluates a frame of `TOTAL_FRAME_SIZE` bytes
set_option maxRecDepth 8000 in
theorem pipe_delivers_written_bytes_two_bytes :
    ∃ pipe, Trace (Succeeds (Pipe.step plainAead)) (Pipe.new () ())
        ([.write [7, 7], .read 1024] : List (Queue.Event UInt8)) [.written 2, .read [7, 7]] pipe ∧
      ∃ q, pipe.Carries plainAead q ∧
        (([.written 2, .read [7, 7]] : List (Queue.Output UInt8)).map Queue.Output.data).flatten ++
            q = (([.write [7, 7], .read 1024] : List (Queue.Event UInt8)).map
              Queue.Event.data).flatten ∧
        List.Forall₂ Queue.Answers ([.write [7, 7], .read 1024] : List (Queue.Event UInt8))
          [.written 2, .read [7, 7]] := by
  obtain ⟨pipe, h⟩ : ∃ pipe, Trace (Succeeds (Pipe.step plainAead)) (Pipe.new () ())
      ([.write [7, 7], .read 1024] : List (Queue.Event UInt8)) [.written 2, .read [7, 7]] pipe :=
    ⟨_, .cons rfl (.cons rfl (.nil _))⟩
  exact ⟨pipe, h, pipe_delivers_written_bytes plainAead_lawful () h (by decide)⟩

/-- A read into a buffer of at least `DATA_MAX_SIZE` bytes, from a pipe that carries `q`, never
panics: while `q` is not empty it returns at least one byte and at most its size, and once `q` is
empty it fails with `UnexpectedEof`. -/
theorem pipe_large_read_never_panics (hlaw : aead.Lawful) {pipe : Pipe Key} {q : Bytes}
    {dataLen : Nat} (hR : pipe.Carries aead q) (hlen : dataMaxSize ≤ dataLen) :
    ∃ result pipe', pipe.step aead (.read dataLen) = some (result, pipe') ∧
      (q ≠ [] → ∃ out, result = .ok (.read out) ∧ out ≠ [] ∧ out.length ≤ dataLen) ∧
      (q = [] → result = .error .unexpectedEof) := by
  obtain ⟨key, nonce, nonce', wire, chunks, rfl, hs, rfl⟩ := hR.eq_mk
  rw [Pipe.step_read rfl]
  cases chunks with
  | nil =>
    cases hs
    exact ⟨_, _, by rw [readAndDecrypt_nil]; rfl, fun hq => absurd rfl hq, fun _ => rfl⟩
  | cons chunk chunks =>
    obtain ⟨hne, hmax⟩ := hs.head
    have hc : chunk.length ≤ dataLen := Nat.le_trans hmax hlen
    obtain ⟨nonce₁, rest, hread, -⟩ := readAndDecrypt_of_sealed hlaw hs hc
    exact ⟨_, _, by rw [hread]; rfl, fun _ => ⟨chunk, rfl, hne, hc⟩,
      fun hq => absurd hq (by simp [hne])⟩

-- the pipe after a write of two bytes to a new pipe; the read evaluates its frame
set_option maxRecDepth 8000 in
theorem pipe_large_read_never_panics_after_write :
    ∃ pipe : Pipe Unit, pipe.Carries plainAead [7, 7] ∧
      ∃ result pipe', pipe.step plainAead (.read 1024) = some (result, pipe') ∧
        ([7, 7] ≠ ([] : Bytes) → ∃ out, result = .ok (.read out) ∧ out ≠ [] ∧ out.length ≤ 1024) ∧
        ([7, 7] = ([] : Bytes) → result = .error .unexpectedEof) := by
  obtain ⟨pipe, hw⟩ : ∃ pipe, (Pipe.new () ()).step plainAead (.write [7, 7]) =
      some (.ok (.written 2), pipe) := ⟨_, rfl⟩
  have hR := (Pipe.Carries.write plainAead_lawful (Pipe.new_carries ()) hw).2
  exact ⟨pipe, hR, pipe_large_read_never_panics plainAead_lawful hR (by decide)⟩

/-- A write of a live sender never panics while the nonce does not overflow: it reports the
length of its buffer. -/
theorem pipe_write_never_panics (hlaw : aead.Lawful) {pipe : Pipe Key} {buf : Bytes}
    (hlive : pipe.sender.terminate = false)
    (hnonce : pipe.sender.state.nonce.counter.toNat + (Slice.chunks dataMaxSize buf).length <
      2 ^ 64) :
    ∃ pipe', pipe.step aead (.write buf) = some (.ok (.written buf.length), pipe') := by
  have hsize : 0 < dataMaxSize := by decide
  obtain ⟨n, channel, state, hw⟩ : ∃ n io s, encryptAndWrite.loop aead
      (Slice.chunks dataMaxSize buf) 0 pipe.channel pipe.sender.state = some (.ok (n, io, s)) :=
    encryptAndWrite.loop_eq_ok hlaw (fun c hc => Slice.mem_chunks hsize hc) hnonce
  obtain ⟨rfl, -⟩ := encryptAndWrite_sealed hlaw hw
  exact ⟨_, by rw [Pipe.step_write hlive, encryptAndWrite, hw]; rfl⟩

theorem pipe_write_never_panics_on_new_pipe :
    ∃ pipe', (Pipe.new () ()).step plainAead (.write [7, 7]) =
      some (.ok (.written 2), pipe') :=
  pipe_write_never_panics plainAead_lawful rfl (by decide)

end P2P

end Tendermint
