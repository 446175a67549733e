import Tendermint.Lib.Protobuf
import Tendermint.Lib.Rust
import Tendermint.Lib.Slice
import Tendermint.Types.Scalars

/-!
# The secret connection's frames

`secret_connection.rs` and `secret_connection/nonce.rs`: `encrypt_and_write` cuts what it writes
into chunks of at most `DATA_MAX_SIZE` bytes and sends each as a sealed frame: the chunk's length
as a little-endian `u32`, the chunk, and zeros up to `TOTAL_FRAME_SIZE` bytes, encrypted in place
under the send nonce and followed by the 16-byte tag; the nonce is then incremented.
`read_and_decrypt` reads one sealed frame, decrypts it under the receive nonce, and copies as much
of the chunk as fits into the caller's buffer.

The cipher is a parameter, `Aead`: ChaCha20-Poly1305's encryption and decryption in place with a
detached tag, under a key and a nonce. What the claims assume of it is `Aead.Lawful`: decryption
under the same key and nonce inverts encryption. The I/O handler is a byte stream: the writer
appends to it and the reader takes from its front, so the frames arrive unchanged. A nonce is its
counter: both ends start from the default nonce, whose first four bytes are zero and stay zero.

`read_and_decrypt` keeps what does not fit into the caller's buffer with
`recv_state.buffer.copy_from_slice(&chunk[n..])`. `copy_from_slice` panics unless both slices have
one length, and the buffer is empty there: a read panics whenever the caller's buffer is shorter
than the chunk, and the buffer never holds a leftover.
-/

namespace Tendermint

namespace P2P

open Rust

/-- `TAG_SIZE`. -/
def tagSize : Nat := 16

/-- `DATA_MAX_SIZE`. -/
def dataMaxSize : Nat := 1024

/-- `DATA_LEN_SIZE`. -/
def dataLenSize : Nat := 4

/-- `TOTAL_FRAME_SIZE`. -/
def totalFrameSize : Nat := dataMaxSize + dataLenSize

/-- `Nonce`, by the little-endian counter of its last eight bytes. -/
structure Nonce where
  counter : UInt64
deriving DecidableEq

namespace Nonce

/-- `Nonce::default`. -/
def default : Nonce := ⟨0⟩

/-- `Nonce::increment`, which panics when the counter overflows. -/
def increment (self : Nonce) : Option Nonce :=
  (checkedAdd self.counter 1).map Nonce.mk

theorem increment_eq_some {n n' : Nonce} :
    n.increment = some n' ↔ n.counter.toNat + 1 < 2 ^ 64 ∧ n'.counter.toNat = n.counter.toNat + 1 := by
  obtain ⟨c⟩ := n
  obtain ⟨c'⟩ := n'
  simp only [increment, Option.map_eq_some_iff, Nonce.mk.injEq, exists_eq_right, checkedAdd_eq_some,
    UInt64.toNat_one]

theorem exists_increment {n : Nonce} (h : n.counter.toNat + 1 < 2 ^ 64) :
    ∃ n', n.increment = some n' ∧ n'.counter.toNat = n.counter.toNat + 1 := by
  have hc : (n.counter + 1).toNat = n.counter.toNat + 1 := by
    rw [UInt64.toNat_add, UInt64.toNat_one, Nat.mod_eq_of_lt h]
  exact ⟨⟨n.counter + 1⟩, increment_eq_some.mpr ⟨h, hc⟩, hc⟩

end Nonce

/-- `nonce::SIZE`. -/
def nonceSize : Nat := 12

/-- `Nonce(pub [u8; SIZE])`, as the source has it: twelve bytes, whose last eight are the
little-endian counter. -/
structure NonceArray where
  bytes : Bytes
  length_bytes : bytes.length = nonceSize
deriving DecidableEq

namespace NonceArray

/-- `Nonce::default`. -/
def default : NonceArray := ⟨List.replicate nonceSize 0, List.length_replicate⟩

/-- `Nonce::increment`: the counter of bytes `4..`, plus one, written back. The conversion of the
eight bytes cannot fail; `checked_add(1).expect(..)` panics on overflow. -/
def increment (self : NonceArray) : Option NonceArray := do
  let counter := UInt64.ofNat (fromLeBytes (self.bytes.drop 4))
  let counter ← checkedAdd counter 1
  pure ⟨self.bytes.take 4 ++ u64ToLeBytes counter.toNat, by
    simp [self.length_bytes, nonceSize, u64ToLeBytes]⟩

/-- `Nonce::to_bytes`. -/
def toBytes (self : NonceArray) : Bytes := self.bytes

/-- `N(k)`: four zero bytes, then the eight little-endian bytes of the counter `k`. -/
def ofCounter (k : Nat) : NonceArray :=
  ⟨[0, 0, 0, 0] ++ u64ToLeBytes k, by simp [nonceSize, u64ToLeBytes]⟩

theorem default_eq : default = ofCounter 0 := by decide

theorem two_pow_sixty_four : (2 : Nat) ^ 64 = 256 ^ 8 ∧ UInt64.size = 2 ^ 64 := ⟨by decide, rfl⟩

/-- The increment of `N(k)` is `N` of the counter's checked successor. -/
theorem increment_ofCounter {k : Nat} (hk : k < 2 ^ 64) :
    (ofCounter k).increment = (checkedAdd (UInt64.ofNat k) 1).map fun c => ofCounter c.toNat := by
  have hcounter : fromLeBytes ((ofCounter k).bytes.drop 4) = k :=
    fromLeBytes_toLeBytes (two_pow_sixty_four.1 ▸ hk)
  unfold increment
  dsimp only
  rw [hcounter]
  cases checkedAdd (UInt64.ofNat k) 1 <;> rfl

/-- `N(k)` increments to `N(k + 1)` while the counter does not overflow. -/
theorem increment_ofCounter_succ {k : Nat} (hk : k + 1 < 2 ^ 64) :
    (ofCounter k).increment = some (ofCounter (k + 1)) := by
  have hsize := two_pow_sixty_four.2
  have hadd : checkedAdd (UInt64.ofNat k) 1 = some (UInt64.ofNat (k + 1)) := by
    rw [checkedAdd_eq_some, UInt64.toNat_ofNat_of_lt' (by omega),
      UInt64.toNat_ofNat_of_lt' (by omega), UInt64.toNat_one]
    exact ⟨hk, rfl⟩
  rw [increment_ofCounter (by omega), hadd, Option.map_some,
    UInt64.toNat_ofNat_of_lt' (by omega)]

/-- The last counter does not wrap: its increment panics. -/
theorem increment_ofCounter_max : (ofCounter (2 ^ 64 - 1)).increment = none := by
  have hsize := two_pow_sixty_four.2
  have hadd : checkedAdd (UInt64.ofNat (2 ^ 64 - 1)) 1 = none := by
    rw [checkedAdd_eq_none, UInt64.toNat_ofNat_of_lt' (by omega), UInt64.toNat_one,
      Nat.sub_add_cancel Nat.one_le_two_pow]
  rw [increment_ofCounter (by omega), hadd, Option.map_none]

/-- Distinct counters give distinct nonces. -/
theorem ofCounter_injective {k k' : Nat} (hk : k < 2 ^ 64) (hk' : k' < 2 ^ 64)
    (h : ofCounter k = ofCounter k') : k = k' := by
  have hbytes : u64ToLeBytes k = u64ToLeBytes k' := by
    have := congrArg (fun n : NonceArray => n.bytes.drop 4) h
    simpa [ofCounter] using this
  calc k = fromLeBytes (u64ToLeBytes k) := (fromLeBytes_toLeBytes (two_pow_sixty_four.1 ▸ hk)).symm
    _ = fromLeBytes (u64ToLeBytes k') := by rw [hbytes]
    _ = k' := fromLeBytes_toLeBytes (two_pow_sixty_four.1 ▸ hk')

end NonceArray

/-- The array of a nonce: `N` of its counter. -/
def Nonce.toArray (n : Nonce) : NonceArray := NonceArray.ofCounter n.counter.toNat

/-- The counter model of a nonce refines the source's array: incrementing the array of a nonce is
taking the array of its increment, panic included. -/
theorem Nonce.increment_toArray (n : Nonce) : n.toArray.increment = n.increment.map Nonce.toArray := by
  rw [Nonce.toArray, NonceArray.increment_ofCounter n.counter.toNat_lt, UInt64.ofNat_toNat]
  cases h : checkedAdd n.counter 1 <;> simp [Nonce.increment, h, Nonce.toArray]

/-- `aead::Error`, which carries nothing. -/
structure AeadError where
deriving DecidableEq

/-- An AEAD cipher under keys of type `Key`, as `ChaCha20Poly1305` is used here: encryption of a
buffer in place, which gives the ciphertext and a detached tag, and decryption of a ciphertext with
its tag; both with empty associated data. -/
structure Aead (Key : Type) where
  encrypt : Key → Nonce → Bytes → Except AeadError (Bytes × Bytes)
  decrypt : Key → Nonce → Bytes → Bytes → Except AeadError Bytes

/-- What the claims assume of the cipher: encryption succeeds, keeps the length of what it
encrypts and gives a tag of `TAG_SIZE` bytes, and decryption under the same key and nonce gives
back what was encrypted. -/
structure Aead.Lawful {Key : Type} (aead : Aead Key) : Prop where
  encrypt_ok : ∀ k n m, ∃ ct tag, aead.encrypt k n m = .ok (ct, tag)
  length_ct : ∀ {k n m ct tag}, aead.encrypt k n m = .ok (ct, tag) → ct.length = m.length
  length_tag : ∀ {k n m ct tag}, aead.encrypt k n m = .ok (ct, tag) → tag.length = tagSize
  decrypt_encrypt : ∀ {k n m ct tag}, aead.encrypt k n m = .ok (ct, tag) →
    aead.decrypt k n ct tag = .ok m

/-- A cipher as `ChaCha20Poly1305` is called, on the array of the nonce
(`GenericArray::from_slice(nonce.to_bytes())`). -/
structure ArrayAead (Key : Type) where
  encrypt : Key → NonceArray → Bytes → Except AeadError (Bytes × Bytes)
  decrypt : Key → NonceArray → Bytes → Bytes → Except AeadError Bytes

/-- The cipher on nonces by their counters, given each counter's array. -/
def ArrayAead.toAead {Key : Type} (c : ArrayAead Key) : Aead Key where
  encrypt key nonce := c.encrypt key nonce.toArray
  decrypt key nonce := c.decrypt key nonce.toArray

/-- The kinds of `Error` (of the crate) that the secret connection's frames and handshake
return; an `Io` error is kept without the `io::Error` it wraps. -/
inductive Error
  | aead (e : AeadError)
  | shortCiphertext (tagSize : Nat)
  | smallOutputBuffer
  | missingSecret
  | lowOrderKey
  | malformedHandshake
  | io
  | missingKey
  | signature
  | unsupportedKey
  | decode (e : Protobuf.DecodeError)
  | protocol

/-- The `io::Error`s of reading and writing frames: a stream that ends inside a frame, an error of
`encrypt` or `decrypt` wrapped with kind `Other`, a frame whose chunk is too big, and the error of
`checked_io!` on a connection that an earlier error terminated. -/
inductive IoError
  | unexpectedEof
  | other (e : Error)
  | chunkTooBig (chunkLength : Nat)
  | terminated

/-- `SendState`: the cipher, by its key, and the nonce of the next frame. -/
structure SendState (Key : Type) where
  cipher : Key
  nonce : Nonce

/-- `ReceiveState`: the cipher, the nonce of the next frame, and the leftover of the last chunk. -/
structure ReceiveState (Key : Type) where
  cipher : Key
  nonce : Nonce
  buffer : Bytes

variable {Key : Type} (aead : Aead Key)

/-- The plaintext of the frame of a chunk, as `encrypt` lays it out in the zeroed sealed frame:
the length, the chunk, and zeros up to `TOTAL_FRAME_SIZE` bytes. -/
def frame (chunk : Bytes) : Bytes :=
  u32ToLeBytes chunk.length ++ chunk ++ List.replicate (totalFrameSize - dataLenSize - chunk.length) 0

/-- `encrypt`, with its two assertions: the sealed frame, the encrypted frame and its tag. -/
def encrypt (chunk : Bytes) (sendCipher : Key) (sendNonce : Nonce) : Option (Except Error Bytes) :=
  do
  assert !chunk.isEmpty
  assert (decide (chunk.length ≤ totalFrameSize - dataLenSize))
  pure <| match aead.encrypt sendCipher sendNonce (frame chunk) with
    | .ok (ct, tag) => .ok (ct ++ tag)
    | .error e => .error (.aead e)

/-- `encrypt_and_write`, on the stream written so far: the number of bytes written, the stream
with the sealed frames of the chunks of `data` appended, and the send state. -/
def encryptAndWrite (ioHandler : Bytes) (sendState : SendState Key) (data : Bytes) :
    Option (Except IoError (Nat × Bytes × SendState Key)) :=
  loop (Slice.chunks dataMaxSize data) 0 ioHandler sendState
where
  /-- The `for` loop over the chunks still to be written. -/
  loop : List Bytes → Nat → Bytes → SendState Key →
      Option (Except IoError (Nat × Bytes × SendState Key))
    | [], n, ioHandler, sendState => pure (.ok (n, ioHandler, sendState))
    | chunk :: chunks, n, ioHandler, sendState => do
      match ← encrypt aead chunk sendState.cipher sendState.nonce with
      | .error e => pure (.error (.other e))
      | .ok sealedFrame =>
        let nonce ← sendState.nonce.increment
        loop chunks (n + chunk.length) (ioHandler ++ sealedFrame) { sendState with nonce }

/-- `decrypt` into an output buffer of `outLen` bytes: the decrypted part of the buffer. -/
def decrypt (ciphertext : Bytes) (recvCipher : Key) (recvNonce : Nonce) (outLen : Nat) :
    Except Error Bytes :=
  if ciphertext.length < tagSize then .error (.shortCiphertext tagSize)
  else
    let ct := ciphertext.take (ciphertext.length - tagSize)
    let tag := ciphertext.drop (ciphertext.length - tagSize)
    if outLen < ct.length then .error .smallOutputBuffer
    else (aead.decrypt recvCipher recvNonce ct tag).mapError .aead

/-- `read_and_decrypt` into a buffer of `dataLen` bytes, from a stream: the bytes read, the rest of
the stream and the receive state. -/
def readAndDecrypt (ioHandler : Bytes) (recvState : ReceiveState Key) (dataLen : Nat) :
    Option (Except IoError (Bytes × Bytes × ReceiveState Key)) :=
  if !recvState.buffer.isEmpty then do
    let n := min dataLen recvState.buffer.length
    -- `data.copy_from_slice(&recv_state.buffer[..n])` fills the whole of `data`
    assert (dataLen == n)
    pure (.ok (recvState.buffer.take n, ioHandler,
      { recvState with buffer := recvState.buffer.drop n }))
  else if ioHandler.length < tagSize + totalFrameSize then pure (.error .unexpectedEof)
  else
    let sealedFrame := ioHandler.take (tagSize + totalFrameSize)
    let ioHandler := ioHandler.drop (tagSize + totalFrameSize)
    match decrypt aead sealedFrame recvState.cipher recvState.nonce totalFrameSize with
    | .error e => pure (.error (.other e))
    | .ok plaintext => do
      let nonce ← recvState.nonce.increment
      -- the decrypted bytes overwrite the front of the zeroed frame
      let frame := plaintext ++ List.replicate (totalFrameSize - plaintext.length) 0
      let chunkLength := u32FromLeBytes frame
      if dataMaxSize < chunkLength then pure (.error (.chunkTooBig chunkLength))
      else
        let chunk := (frame.drop dataLenSize).take chunkLength
        let n := min dataLen chunk.length
        -- `recv_state.buffer.copy_from_slice(&chunk[n..])`, into the buffer, which is empty
        assert (recvState.buffer.length == chunk.length - n)
        pure (.ok (chunk.take n, ioHandler, { recvState with nonce, buffer := chunk.drop n }))

/-- `Sender`, by what its writes use: the send state and the connection's `terminate` flag. -/
structure Sender (Key : Type) where
  state : SendState Key
  terminate : Bool

/-- `Receiver`, by what its reads use: the receive state and the connection's `terminate` flag. -/
structure Receiver (Key : Type) where
  state : ReceiveState Key
  terminate : Bool

/-- `checked_io!`, given the flag, the state and the result of the call with the next state: an
error once the connection is terminated, and otherwise the call, whose error terminates the
connection. After an error the state is left as it was: no later call reads it. -/
def checkedIo {α σ : Type} (terminate : Bool) (state : σ)
    (result : Option (Except IoError (α × σ))) : Option (Except IoError α × σ × Bool) :=
  if terminate then some (.error .terminated, state, true)
  else result.map fun
    | .ok (a, state') => (.ok a, state', false)
    | .error e => (.error e, state, true)

theorem checkedIo_eq_ok {α σ : Type} {terminate terminate' : Bool} {state state' : σ}
    {result : Option (Except IoError (α × σ))} {a : α} :
    checkedIo terminate state result = some (.ok a, state', terminate') ↔
      terminate = false ∧ result = some (.ok (a, state')) ∧ terminate' = false := by
  cases terminate <;> rcases result with _ | (e | ⟨b, s⟩) <;> simp [checkedIo, eq_comm, and_assoc]

/-- `Sender::write`, on the stream written so far: `encrypt_and_write` under `checked_io!`. -/
def Sender.write (self : Sender Key) (ioHandler buf : Bytes) :
    Option (Except IoError Nat × Sender Key × Bytes) :=
  (checkedIo self.terminate (ioHandler, self.state)
      (encryptAndWrite aead ioHandler self.state buf)).map
    fun (result, (ioHandler, state), terminate) => (result, ⟨state, terminate⟩, ioHandler)

/-- `Receiver::read`, from the stream still to read: `read_and_decrypt` under `checked_io!`. -/
def Receiver.read (self : Receiver Key) (ioHandler : Bytes) (dataLen : Nat) :
    Option (Except IoError Bytes × Receiver Key × Bytes) :=
  (checkedIo self.terminate (ioHandler, self.state)
      (readAndDecrypt aead ioHandler self.state dataLen)).map
    fun (result, (ioHandler, state), terminate) => (result, ⟨state, terminate⟩, ioHandler)

/-! ## One frame -/

section Frame

variable {aead} {key : Key} {nonce nonce' : Nonce} {chunk ct tag : Bytes}

theorem length_frame (hc : chunk.length ≤ dataMaxSize) : (frame chunk).length = totalFrameSize := by
  simp only [frame, List.length_append, length_u32ToLeBytes, List.length_replicate, totalFrameSize,
    dataLenSize] at hc ⊢
  omega

/-- A chunk of at most `DATA_MAX_SIZE` bytes that is not empty is sealed as its encrypted frame and
the tag. -/
theorem encrypt_eq (hne : chunk ≠ []) (hc : chunk.length ≤ dataMaxSize)
    (he : aead.encrypt key nonce (frame chunk) = .ok (ct, tag)) :
    encrypt aead chunk key nonce = some (.ok (ct ++ tag)) := by
  have hle : chunk.length ≤ totalFrameSize - dataLenSize := by
    simpa [totalFrameSize, dataLenSize] using hc
  simp [encrypt, hne, hle, he, assert]

/-- A read into an empty receive buffer, of a sealed frame of the lawful cipher: the whole chunk if
the caller's buffer holds it, and a panic otherwise. -/
theorem readAndDecrypt_sealed (hlaw : aead.Lawful) (hc : chunk.length ≤ dataMaxSize)
    (he : aead.encrypt key nonce (frame chunk) = .ok (ct, tag))
    (hinc : nonce.increment = some nonce') (rest : Bytes) (dataLen : Nat) :
    readAndDecrypt aead (ct ++ tag ++ rest) ⟨key, nonce, []⟩ dataLen =
      if chunk.length ≤ dataLen then some (.ok (chunk, rest, ⟨key, nonce', []⟩)) else none := by
  have hct : ct.length = totalFrameSize := (hlaw.length_ct he).trans (length_frame hc)
  have htag : tag.length = tagSize := hlaw.length_tag he
  -- the stream starts with the sealed frame, which `decrypt` splits back into `ct` and the tag
  have hsealed : (ct ++ tag ++ rest).take (tagSize + totalFrameSize) = ct ++ tag := by
    rw [← hct, ← htag, Nat.add_comm, ← List.length_append, List.take_left]
  have hrest : (ct ++ tag ++ rest).drop (tagSize + totalFrameSize) = rest := by
    rw [← hct, ← htag, Nat.add_comm, ← List.length_append, List.drop_left]
  have hdec : decrypt aead (ct ++ tag) key nonce totalFrameSize = .ok (frame chunk) := by
    have hshort : ¬ (ct ++ tag).length < tagSize := by simp [htag]
    have hsplit : (ct ++ tag).length - tagSize = ct.length := by simp [htag]
    have hout : ¬ totalFrameSize < ct.length := by omega
    simp only [decrypt, hshort, if_false, hsplit, List.take_left, List.drop_left, hout,
      hlaw.decrypt_encrypt he]
    rfl
  have hlen : ¬ (ct ++ tag ++ rest).length < tagSize + totalFrameSize := by
    simp only [List.length_append, hct, htag]
    omega
  -- the frame holds the chunk's length, then the chunk
  have hframe : frame chunk ++ List.replicate (totalFrameSize - (frame chunk).length) 0 =
      frame chunk := by
    simp [length_frame hc]
  have hword : u32FromLeBytes (frame chunk) = chunk.length := by
    unfold frame
    rw [List.append_assoc]
    exact u32FromLeBytes_append (by simp only [dataMaxSize] at hc; omega) _
  have hchunk : ((frame chunk).drop dataLenSize).take chunk.length = chunk := by
    simp only [frame, dataLenSize, List.append_assoc]
    rw [List.drop_left' (length_u32ToLeBytes _), List.take_left' rfl]
  simp only [readAndDecrypt, List.isEmpty_nil, Bool.not_true, Bool.false_eq_true, if_false, hlen,
    hsealed, hrest, hdec, hinc, hframe, hword, Option.bind_eq_bind, Option.bind_some,
    not_lt.mpr hc, hchunk, List.length_nil]
  by_cases hfit : chunk.length ≤ dataLen
  · simp [hfit, assert]
  · have hn : min dataLen chunk.length = dataLen := min_eq_left (by omega)
    simp [hfit, hn, assert]
    omega

/-- What a write adds to the stream comes after what was there. -/
theorem encryptAndWrite.loop_append {chunks : List Bytes} {n n' : Nat} {io io' : Bytes}
    {s s' : SendState Key} (h : loop aead chunks n io s = some (.ok (n', io', s'))) :
    ∃ rest, io' = io ++ rest := by
  induction chunks generalizing n io s with
  | nil =>
    simp only [loop, pure, Option.some.injEq, Except.ok.injEq, Prod.mk.injEq] at h
    exact ⟨[], by simp [h.2.1]⟩
  | cons chunk chunks ih =>
    simp only [loop, Option.bind_eq_bind, Option.bind_eq_some_iff] at h
    obtain ⟨r, -, h⟩ := h
    cases r with
    | error e => cases h
    | ok sealedFrame =>
      simp only [Option.bind_eq_some_iff] at h
      obtain ⟨nonce, -, h⟩ := h
      obtain ⟨rest, hrest⟩ := ih h
      exact ⟨sealedFrame ++ rest, by rw [hrest, List.append_assoc]⟩

/-- An iteration of the loop of `encrypt_and_write`, on a chunk that the cipher seals. -/
theorem encryptAndWrite.loop_cons_eq {chunks : List Bytes} {n : Nat} {io : Bytes}
    {s : SendState Key} (hne : chunk ≠ []) (hc : chunk.length ≤ dataMaxSize)
    (he : aead.encrypt s.cipher s.nonce (frame chunk) = .ok (ct, tag)) :
    loop aead (chunk :: chunks) n io s = s.nonce.increment.bind fun nonce =>
      loop aead chunks (n + chunk.length) (io ++ (ct ++ tag)) { s with nonce } := by
  simp only [loop, encrypt_eq hne hc he, Option.bind_eq_bind, Option.bind_some]

/-- An iteration of the loop that does not panic: the cipher sealed the chunk, the nonce was
incremented, and the rest of the loop runs from there to the same result. -/
theorem encryptAndWrite.loop_cons_eq_some (hlaw : aead.Lawful) {chunks : List Bytes} {n : Nat}
    {io : Bytes} {s : SendState Key} {r : Except IoError (Nat × Bytes × SendState Key)}
    (hne : chunk ≠ []) (hc : chunk.length ≤ dataMaxSize)
    (h : loop aead (chunk :: chunks) n io s = some r) :
    ∃ ct tag nonce, aead.encrypt s.cipher s.nonce (frame chunk) = .ok (ct, tag) ∧
      s.nonce.increment = some nonce ∧
      loop aead chunks (n + chunk.length) (io ++ (ct ++ tag)) { s with nonce } = some r := by
  obtain ⟨ct, tag, he⟩ := hlaw.encrypt_ok s.cipher s.nonce (frame chunk)
  rw [loop_cons_eq hne hc he] at h
  cases hinc : s.nonce.increment with
  | none => rw [hinc] at h; cases h
  | some nonce =>
    rw [hinc, Option.bind_some] at h
    exact ⟨ct, tag, nonce, he, rfl, h⟩

/-- A write that succeeds sent the sealed frame of its first chunk first. -/
theorem encryptAndWrite.loop_cons (hlaw : aead.Lawful) {chunks : List Bytes} {n n' : Nat}
    {io io' : Bytes} {s s' : SendState Key} (hne : chunk ≠ []) (hc : chunk.length ≤ dataMaxSize)
    (h : loop aead (chunk :: chunks) n io s = some (.ok (n', io', s'))) :
    ∃ ct tag nonce', aead.encrypt s.cipher s.nonce (frame chunk) = .ok (ct, tag) ∧
      s.nonce.increment = some nonce' ∧ ∃ rest, io' = io ++ (ct ++ tag) ++ rest := by
  obtain ⟨ct, tag, nonce', he, hinc, h⟩ := loop_cons_eq_some hlaw hne hc h
  exact ⟨ct, tag, nonce', he, hinc, loop_append h⟩

end Frame

/-! ## A read shorter than a chunk -/

/-- A read into a buffer shorter than the first chunk written panics: the leftover of the chunk does
not fit into the empty receive buffer. -/
theorem readAndDecrypt_short_buffer_panics (hlaw : aead.Lawful) {key : Key} {nonce : Nonce}
    {data wire : Bytes} {n dataLen : Nat} {sendState : SendState Key}
    (hw : encryptAndWrite aead [] ⟨key, nonce⟩ data = some (.ok (n, wire, sendState)))
    (hlt : dataLen < data.length) (hmax : dataLen < dataMaxSize) :
    readAndDecrypt aead wire ⟨key, nonce, []⟩ dataLen = none := by
  have hne : data ≠ [] := List.ne_nil_of_length_pos (by omega)
  have hsize : 0 < dataMaxSize := by decide
  -- the first chunk holds more than the caller's buffer
  have hcne : data.take dataMaxSize ≠ [] := by simp [hne, dataMaxSize]
  have hc : (data.take dataMaxSize).length ≤ dataMaxSize := List.length_take_le _ _
  have hfits : ¬ (data.take dataMaxSize).length ≤ dataLen := by
    rw [List.length_take]
    omega
  unfold encryptAndWrite at hw
  rw [Slice.chunks_of_ne_nil hsize hne] at hw
  obtain ⟨ct, tag, nonce', he, hinc, rest, rfl⟩ := encryptAndWrite.loop_cons hlaw hcne hc hw
  rw [List.nil_append, readAndDecrypt_sealed hlaw hc he hinc rest dataLen, if_neg hfits]

/-- The cipher that leaves the frame as it is, with a zero tag. -/
def plainAead : Aead Unit where
  encrypt _ _ m := .ok (m, List.replicate tagSize 0)
  decrypt _ _ ct _ := .ok ct

theorem plainAead_lawful : plainAead.Lawful where
  encrypt_ok _ _ m := ⟨m, _, rfl⟩
  length_ct h := by cases h; rfl
  length_tag h := by cases h; rfl
  decrypt_encrypt h := by cases h; rfl

/-- Two bytes written, and a read of one byte: the read panics. -/
theorem readAndDecrypt_short_buffer_panics_two_bytes :
    ∃ wire s, encryptAndWrite plainAead [] ⟨(), .default⟩ [7, 7] = some (.ok (2, wire, s)) ∧
      readAndDecrypt plainAead wire ⟨(), .default, []⟩ 1 = none := by
  obtain ⟨wire, s, hw⟩ : ∃ wire s, encryptAndWrite plainAead [] ⟨(), .default⟩ [7, 7] =
      some (.ok (2, wire, s)) := ⟨_, _, rfl⟩
  exact ⟨wire, s, hw, readAndDecrypt_short_buffer_panics plainAead plainAead_lawful hw (by decide)
    (by decide)⟩

end P2P

end Tendermint
