import Tendermint.P2P.ByteStream

/-!
# Nonces in step

Each direction of a secret connection counts its frames in the nonce: `encrypt_and_write`
increments the send nonce after sealing each chunk, and `read_and_decrypt` increments the receive
nonce after opening each frame. The cipher is given the nonce's array (`ArrayAead`), so the `k`-th
frame of a direction is sealed and opened under `N(k)`, four zero bytes and the counter `k` in
little-endian order (`NonceArray.ofCounter`).

On the sending side the `k`-th sealed frame on the wire, counting from zero over every write, is
sealed under `N(k)` (`Sender.run_sealed`, `Sealed.sealedFrameAt`). On the receiving side, whatever
bytes arrive, a read that succeeds is the `j`-th read and opened the `j`-th frame under `N(j)`:
every failure terminates the receiver, and every later read fails (`Receiver.run_opens`). No two
frames share a nonce: the counter stops at `2 ^ 64 - 1` with a panic, and `N` is injective below
`2 ^ 64`.
-/

namespace Tendermint

namespace P2P

open Rust Stream

variable {Key : Type} (aead : Aead Key)

/-- The `k`-th sealed frame of a wire: the `TAG_SIZE + TOTAL_FRAME_SIZE` bytes from the `k`-th such
position on. -/
def sealedFrameAt (wire : Bytes) (k : Nat) : Bytes :=
  (wire.drop (k * (tagSize + totalFrameSize))).take (tagSize + totalFrameSize)

/-- A call of `Sender::write`, on the bytes written so far. -/
def Sender.step (self : Sender Key × Bytes) (buf : Bytes) :
    Option (Except IoError Nat × (Sender Key × Bytes)) :=
  self.1.write aead self.2 buf

/-- A call of `Receiver::read` into a buffer of `dataLen` bytes, on the bytes still to read. -/
def Receiver.step (self : Receiver Key × Bytes) (dataLen : Nat) :
    Option (Except IoError Bytes × (Receiver Key × Bytes)) :=
  self.1.read aead self.2 dataLen

variable {aead}

/-! ## Positions on the wire -/

section Wire

variable {pre rest wire : Bytes}

theorem sealedFrameAt_append_zero (hpre : pre.length = tagSize + totalFrameSize) :
    sealedFrameAt (pre ++ rest) 0 = pre := by
  rw [sealedFrameAt, Nat.zero_mul, List.drop_zero, ← hpre, List.take_left]

theorem sealedFrameAt_append_succ (hpre : pre.length = tagSize + totalFrameSize) (i : Nat) :
    sealedFrameAt (pre ++ rest) (i + 1) = sealedFrameAt rest i := by
  have hpos : (i + 1) * (tagSize + totalFrameSize) = pre.length + i * (tagSize + totalFrameSize) := by
    rw [hpre, Nat.succ_mul, Nat.add_comm]
  rw [sealedFrameAt, hpos, ← List.drop_drop, List.drop_left, sealedFrameAt]

theorem sealedFrameAt_drop (k i : Nat) :
    sealedFrameAt (wire.drop (k * (tagSize + totalFrameSize))) i = sealedFrameAt wire (k + i) := by
  rw [sealedFrameAt, sealedFrameAt, List.drop_drop, Nat.add_mul]

end Wire

/-! ## Sending -/

section Send

variable {key : Key} {nonce nonce' : Nonce} {chunks : List Bytes} {wire : Bytes}

/-- Sealed frames from the counter of `nonce` on: the frame at each position `i` is the encrypted
frame of the `i`-th chunk under the counter plus `i`. The induction is on the frames. -/
theorem Sealed.sealedFrameAt (hlaw : aead.Lawful) (h : Sealed aead key nonce chunks wire nonce') :
    nonce'.counter.toNat = nonce.counter.toNat + chunks.length ∧
      wire.length = chunks.length * (tagSize + totalFrameSize) ∧
      ∀ i (hi : i < chunks.length), ∃ ct tag,
        aead.encrypt key ⟨UInt64.ofNat (nonce.counter.toNat + i)⟩ (frame chunks[i]) =
            .ok (ct, tag) ∧ P2P.sealedFrameAt wire i = ct ++ tag := by
  induction h with
  | nil => simp
  | @cons nonce nonce₁ nonce' chunk ct tag rest chunks hne hc he hinc hs ih =>
    obtain ⟨hcount, hlen, hat⟩ := ih
    have hframe : (ct ++ tag).length = tagSize + totalFrameSize := by
      rw [List.length_append, (hlaw.length_ct he).trans (length_frame hc), hlaw.length_tag he,
        Nat.add_comm]
    have hsucc := (Nonce.increment_eq_some.mp hinc).2
    refine ⟨by rw [hcount, hsucc, List.length_cons]; omega, ?_, fun i hi => ?_⟩
    · rw [List.length_append, hframe, hlen, List.length_cons, Nat.succ_mul, Nat.add_comm]
    cases i with
    | zero =>
      -- the first frame is sealed under the nonce itself
      refine ⟨ct, tag, ?_, sealedFrameAt_append_zero hframe⟩
      rw [Nat.add_zero, UInt64.ofNat_toNat]
      exact he
    | succ i =>
      obtain ⟨ct', tag', he', hat'⟩ := hat i (by simpa using hi)
      refine ⟨ct', tag', ?_, by rw [sealedFrameAt_append_succ hframe, hat']⟩
      rw [show nonce.counter.toNat + (i + 1) = nonce₁.counter.toNat + i by omega]
      exact he'

/-- The loop of `encrypt_and_write` over a lawful cipher does not fail: it returns or panics. -/
theorem encryptAndWrite.loop_ne_error (hlaw : aead.Lawful) {e : IoError} :
    ∀ {chunks : List Bytes} {n : Nat} {io : Bytes} {s : SendState Key},
      (∀ c ∈ chunks, c ≠ [] ∧ c.length ≤ dataMaxSize) → loop aead chunks n io s ≠ some (.error e)
  | [], _, _, _, _ => by simp [loop]
  | chunk :: chunks, n, io, s, hcs => by
    obtain ⟨hne, hc⟩ := hcs chunk List.mem_cons_self
    intro h
    obtain ⟨_, _, _, -, -, hrest⟩ := loop_cons_eq_some hlaw hne hc h
    exact loop_ne_error hlaw (fun c hc => hcs c (List.mem_cons_of_mem _ hc)) hrest

/-- A call of a live sender: the write, whose error terminates the sender. -/
theorem Sender.step_of_live {s : Sender Key × Bytes} {buf : Bytes}
    (hlive : s.1.terminate = false) :
    Sender.step aead s buf =
      (encryptAndWrite aead s.2 s.1.state buf).map fun
        | .ok (n, wire, state) => (.ok n, (⟨state, false⟩, wire))
        | .error e => (.error e, (⟨s.1.state, true⟩, s.2)) := by
  obtain ⟨⟨state, terminate⟩, wire⟩ := s
  dsimp only at hlive
  subst hlive
  rcases hw : encryptAndWrite aead wire state buf with _ | (e | ⟨n, wire', state'⟩) <;>
    simp [Sender.step, Sender.write, checkedIo, hw]

/-- A call of a live sender over a lawful cipher sends the sealed frames of the chunks of its
buffer and reports the buffer's length; the sender stays live. -/
theorem Sender.step_sealed (hlaw : aead.Lawful) {s s' : Sender Key × Bytes} {buf : Bytes}
    {r : Except IoError Nat} (hlive : s.1.terminate = false)
    (h : Returns (Sender.step aead) s buf r s') :
    r = .ok buf.length ∧ s'.1.terminate = false ∧ s'.1.state.cipher = s.1.state.cipher ∧
      ∃ frames, s'.2 = s.2 ++ frames ∧
        Sealed aead s.1.state.cipher s.1.state.nonce (Slice.chunks dataMaxSize buf) frames
          s'.1.state.nonce := by
  have hsize : 0 < dataMaxSize := by decide
  unfold Returns at h
  rw [Sender.step_of_live hlive] at h
  rcases hw : encryptAndWrite aead s.2 s.1.state buf with _ | (e | ⟨n, wire, state⟩)
  · rw [hw] at h
    cases h
  · exact absurd hw (encryptAndWrite.loop_ne_error hlaw fun c hc => Slice.mem_chunks hsize hc)
  · rw [hw] at h
    cases h
    obtain ⟨rfl, hcipher, frames, rfl, hs⟩ := encryptAndWrite_sealed hlaw hw
    exact ⟨rfl, rfl, hcipher, frames, rfl, hs⟩

/-- Every run of writes of a live sender over a lawful cipher succeeds, and the wire holds after
what it held the sealed frames of chunks that make up the buffers, from the sender's nonce on.
The induction is on the run. -/
theorem Sender.run_sealed (hlaw : aead.Lawful) {s s' : Sender Key × Bytes} {bufs : List Bytes}
    {rs : List (Except IoError Nat)} (h : Trace (Returns (Sender.step aead)) s bufs rs s')
    (hlive : s.1.terminate = false) :
    rs = bufs.map (fun buf => .ok buf.length) ∧ s'.1.terminate = false ∧
      ∃ chunks frames, chunks.flatten = bufs.flatten ∧ s'.2 = s.2 ++ frames ∧
        Sealed aead s.1.state.cipher s.1.state.nonce chunks frames s'.1.state.nonce := by
  induction h with
  | nil s => exact ⟨rfl, hlive, [], [], rfl, by simp, .nil _⟩
  | @cons s s₁ s' buf r bufs rs hstep _ ih =>
    obtain ⟨rfl, hlive₁, hcipher₁, frames₁, hwire₁, hs₁⟩ := Sender.step_sealed hlaw hlive hstep
    obtain ⟨hrs, hlive', chunks, frames, hflat, hwire, hs⟩ := ih hlive₁
    refine ⟨by rw [hrs, List.map_cons], hlive', Slice.chunks dataMaxSize buf ++ chunks,
      frames₁ ++ frames, ?_, ?_, hs₁.append (hcipher₁ ▸ hs)⟩
    · rw [List.flatten_append, hflat, Slice.flatten_chunks (by decide), List.flatten_cons]
    · rw [hwire, hwire₁, List.append_assoc]

end Send

/-! ## Receiving -/

section Receive

variable {key : Key} {nonce : Nonce}

/-- The model's `decrypt` of a whole sealed frame is the cipher's decryption of its frame and its
tag. -/
theorem decrypt_eq_ok {sealed : Bytes} {outLen : Nat} {plaintext : Bytes}
    (hlen : sealed.length = tagSize + totalFrameSize)
    (h : decrypt aead sealed key nonce outLen = .ok plaintext) :
    aead.decrypt key nonce (sealed.take totalFrameSize) (sealed.drop totalFrameSize) =
      .ok plaintext := by
  have hsplit : sealed.length - tagSize = totalFrameSize := by omega
  have hct : (sealed.take totalFrameSize).length = totalFrameSize := by
    rw [List.length_take]
    omega
  unfold decrypt at h
  rw [if_neg (by omega), hsplit] at h
  dsimp only at h
  rw [hct] at h
  split at h
  · cases h
  · cases hd : aead.decrypt key nonce (sealed.take totalFrameSize) (sealed.drop totalFrameSize)
    · rw [hd] at h
      cases h
    · rw [hd] at h
      cases h
      rfl

/-- A read into an empty receive buffer that succeeds opened the sealed frame at the front of the
wire under the receive nonce, went past it, and moved to the next nonce; the buffer stays empty. -/
theorem readAndDecrypt_eq_ok {wire out rest : Bytes} {dataLen : Nat} {state : ReceiveState Key}
    (h : readAndDecrypt aead wire ⟨key, nonce, []⟩ dataLen = some (.ok (out, rest, state))) :
    ∃ plaintext nonce',
      aead.decrypt key nonce ((sealedFrameAt wire 0).take totalFrameSize)
          ((sealedFrameAt wire 0).drop totalFrameSize) = .ok plaintext ∧
        nonce.increment = some nonce' ∧ rest = wire.drop (tagSize + totalFrameSize) ∧
        state = ⟨key, nonce', []⟩ := by
  have hat : sealedFrameAt wire 0 = wire.take (tagSize + totalFrameSize) := by
    rw [sealedFrameAt, Nat.zero_mul, List.drop_zero]
  unfold readAndDecrypt at h
  simp only [List.isEmpty_nil, Bool.not_true, Bool.false_eq_true, if_false] at h
  split at h
  · cases h
  -- a whole sealed frame is there, and `decrypt` opened it
  rename_i hlong
  have hlen : (wire.take (tagSize + totalFrameSize)).length = tagSize + totalFrameSize := by
    rw [List.length_take]
    omega
  split at h
  · cases h
  rename_i plaintext hdec
  obtain ⟨nonce', hinc, h⟩ := Option.bind_eq_some_iff.mp h
  split at h
  · cases h
  obtain ⟨u, hassert, h⟩ := Option.bind_eq_some_iff.mp h
  simp only [Option.pure_def, Option.some.injEq, Except.ok.injEq, Prod.mk.injEq] at h
  obtain ⟨-, rfl, rfl⟩ := h
  -- the assertion on the empty buffer leaves nothing of the chunk behind
  rw [assert_eq_some, List.length_nil, beq_iff_eq] at hassert
  refine ⟨plaintext, nonce', hat ▸ decrypt_eq_ok hlen hdec, hinc, rfl, ?_⟩
  rw [List.drop_eq_nil_of_le (by omega)]

/-- A call of a live receiver with an empty buffer either succeeds, having opened the first frame
under its nonce and moved past it to the next nonce, or fails and terminates the receiver. -/
theorem Receiver.step_of_live {s s' : Receiver Key × Bytes} {dataLen : Nat}
    {r : Except IoError Bytes} (hs : s.1 = ⟨⟨key, nonce, []⟩, false⟩)
    (h : Returns (Receiver.step aead) s dataLen r s') :
    (∃ out plaintext nonce', r = .ok out ∧
      aead.decrypt key nonce ((sealedFrameAt s.2 0).take totalFrameSize)
          ((sealedFrameAt s.2 0).drop totalFrameSize) = .ok plaintext ∧
        nonce.increment = some nonce' ∧
        s' = (⟨⟨key, nonce', []⟩, false⟩, s.2.drop (tagSize + totalFrameSize))) ∨
      ∃ e, r = .error e ∧ s'.1.terminate = true := by
  obtain ⟨receiver, wire⟩ := s
  dsimp only at hs
  subst hs
  unfold Returns Receiver.step Receiver.read checkedIo at h
  rcases hr : readAndDecrypt aead wire ⟨key, nonce, []⟩ dataLen with _ | (e | ⟨out, rest, state⟩)
  · rw [hr] at h
    cases h
  · rw [hr] at h
    cases h
    exact .inr ⟨e, rfl, rfl⟩
  · rw [hr] at h
    cases h
    obtain ⟨plaintext, nonce', hdec, hinc, rfl, rfl⟩ := readAndDecrypt_eq_ok hr
    exact .inl ⟨out, plaintext, nonce', rfl, hdec, hinc, rfl⟩

/-- A terminated receiver fails every call, and stays terminated. -/
theorem Receiver.run_of_terminated {s s' : Receiver Key × Bytes} {dataLens : List Nat}
    {rs : List (Except IoError Bytes)} (h : Trace (Returns (Receiver.step aead)) s dataLens rs s')
    (hterm : s.1.terminate = true) : ∀ r ∈ rs, r = .error .terminated := by
  induction h with
  | nil => simp
  | @cons s s₁ s' dataLen r dataLens rs hstep _ ih =>
    obtain ⟨⟨state, terminate⟩, wire⟩ := s
    dsimp only at hterm
    subst hterm
    unfold Returns Receiver.step Receiver.read checkedIo at hstep
    simp only [if_true, Option.map_some, Option.some.injEq, Prod.mk.injEq] at hstep
    obtain ⟨rfl, rfl⟩ := hstep
    intro r' hr'
    rcases List.mem_cons.mp hr' with rfl | hr'
    · rfl
    · exact ih rfl r' hr'

/-- Along every run of reads of a live receiver at the counter `k`, whatever the wire holds, a read
that succeeds is the `j`-th of the run and opened the `(k + j)`-th frame of the wire under the
counter `k + j`: a failure terminates the receiver, and no later read succeeds. The induction is on
the run. -/
theorem Receiver.run_opens {wire : Bytes} {s s' : Receiver Key × Bytes} {dataLens : List Nat}
    {rs : List (Except IoError Bytes)} (h : Trace (Returns (Receiver.step aead)) s dataLens rs s') :
    ∀ {k : Nat}, k < 2 ^ 64 →
      s = (⟨⟨key, ⟨UInt64.ofNat k⟩, []⟩, false⟩, wire.drop (k * (tagSize + totalFrameSize))) →
      ∀ j (hj : j < rs.length) out, rs[j] = .ok out → k + j + 1 < 2 ^ 64 ∧ ∃ plaintext,
        aead.decrypt key ⟨UInt64.ofNat (k + j)⟩ ((sealedFrameAt wire (k + j)).take totalFrameSize)
          ((sealedFrameAt wire (k + j)).drop totalFrameSize) = .ok plaintext := by
  induction h with
  | nil => exact fun _ _ j hj => absurd hj (Nat.not_lt_zero j)
  | @cons s s₁ s' dataLen r dataLens rs hstep hrest ih =>
    intro k hk hs j hj out hout
    rcases Receiver.step_of_live (congrArg Prod.fst hs) hstep with
      ⟨out₀, plaintext, nonce', rfl, hdec, hinc, rfl⟩ | ⟨e, rfl, hterm⟩
    · rw [hs, sealedFrameAt_drop] at hdec
      -- the next nonce is the next counter
      obtain ⟨hnext, hcounter⟩ := Nonce.increment_eq_some.mp hinc
      rw [UInt64.toNat_ofNat_of_lt' hk] at hnext hcounter
      have hnonce : nonce' = ⟨UInt64.ofNat (k + 1)⟩ := by
        obtain ⟨c⟩ := nonce'
        congr
        exact UInt64.toNat_inj.mp (by rw [UInt64.toNat_ofNat_of_lt' hnext]; exact hcounter)
      cases j with
      | zero => exact ⟨hnext, plaintext, hdec⟩
      | succ j =>
        have hwire : (wire.drop (k * (tagSize + totalFrameSize))).drop (tagSize + totalFrameSize) =
            wire.drop ((k + 1) * (tagSize + totalFrameSize)) := by
          rw [List.drop_drop, Nat.succ_mul]
        obtain ⟨hbound, plaintext', hdec'⟩ :=
          ih hnext (by rw [hs, hnonce, hwire]) j (by simpa using hj) out hout
        rw [show k + 1 + j = k + (j + 1) by omega] at hbound hdec'
        exact ⟨hbound, plaintext', hdec'⟩
    · -- after a failure every read fails
      cases j with
      | zero => cases hout
      | succ j =>
        have hj' : j < rs.length := by simpa using hj
        have hfail := Receiver.run_of_terminated hrest hterm rs[j] (List.getElem_mem hj')
        rw [List.getElem_cons_succ, hfail] at hout
        cases hout

end Receive

/-! ## The nonces of both directions -/

theorem Nonce.toArray_ofNat {k : Nat} (hk : k < 2 ^ 64) :
    (⟨UInt64.ofNat k⟩ : Nonce).toArray = NonceArray.ofCounter k := by
  rw [Nonce.toArray, UInt64.toNat_ofNat_of_lt' hk]

/-- Nonces are never reused, and both directions stay in step. `Nonce::default` is `N(0)`, and
`Nonce::increment` takes `N(k)` to `N(k + 1)` below the last counter, where it panics instead of
wrapping; distinct counters give distinct nonces. Over a cipher that encrypts every frame, every
run of writes of a new sender succeeds and puts on the wire, in order, the sealed frames of chunks
that make up what was written, the `k`-th sealed under `N(k)`. Whatever bytes a new receiver is
given, the `j`-th read of a run that succeeds opened the `j`-th sealed frame of those bytes under
`N(j)`. -/
theorem nonces_never_reused_and_in_step (c : ArrayAead Key) (hlaw : c.toAead.Lawful) (key : Key) :
    NonceArray.default = NonceArray.ofCounter 0 ∧
      (∀ k, k + 1 < 2 ^ 64 →
        (NonceArray.ofCounter k).increment = some (NonceArray.ofCounter (k + 1))) ∧
      (NonceArray.ofCounter (2 ^ 64 - 1)).increment = none ∧
      (∀ k k', k < 2 ^ 64 → k' < 2 ^ 64 → NonceArray.ofCounter k = NonceArray.ofCounter k' →
        k = k') ∧
      (∀ (bufs : List Bytes) (rs : List (Except IoError Nat)) (s : Sender Key × Bytes),
        Trace (Returns (Sender.step c.toAead)) (⟨⟨key, .default⟩, false⟩, []) bufs rs s →
        ∃ chunks : List Bytes, chunks.flatten = bufs.flatten ∧ chunks.length < 2 ^ 64 ∧
          s.2.length = chunks.length * (tagSize + totalFrameSize) ∧
          ∀ k (hk : k < chunks.length), ∃ ct tag,
            c.encrypt key (NonceArray.ofCounter k) (frame chunks[k]) = .ok (ct, tag) ∧
              sealedFrameAt s.2 k = ct ++ tag) ∧
      ∀ (wire : Bytes) (dataLens : List Nat) (rs : List (Except IoError Bytes))
        (s : Receiver Key × Bytes),
        Trace (Returns (Receiver.step c.toAead)) (⟨⟨key, .default, []⟩, false⟩, wire) dataLens rs s →
        ∀ j (hj : j < rs.length) out, rs[j] = .ok out → ∃ plaintext,
          c.decrypt key (NonceArray.ofCounter j) ((sealedFrameAt wire j).take totalFrameSize)
            ((sealedFrameAt wire j).drop totalFrameSize) = .ok plaintext := by
  refine ⟨NonceArray.default_eq, fun k hk => NonceArray.increment_ofCounter_succ hk,
    NonceArray.increment_ofCounter_max, fun k k' hk hk' h => NonceArray.ofCounter_injective hk hk' h,
    fun bufs rs s h => ?_, fun wire dataLens rs s h j hj out hout => ?_⟩
  · obtain ⟨-, -, chunks, frames, hflat, hwire, hs⟩ := Sender.run_sealed hlaw h rfl
    obtain ⟨hcount, hlen, hat⟩ := hs.sealedFrameAt hlaw
    -- the frames are counted from the default nonce, whose counter is zero
    have hzero : Nonce.default.counter.toNat = 0 := rfl
    have hbound : chunks.length < 2 ^ 64 := by
      have := s.1.state.nonce.counter.toNat_lt
      simp only [hzero, Nat.zero_add] at hcount
      omega
    refine ⟨chunks, hflat, hbound, by rw [hwire, List.nil_append, hlen], fun k hk => ?_⟩
    obtain ⟨ct, tag, he, hframe⟩ := hat k hk
    refine ⟨ct, tag, ?_, by rw [hwire, List.nil_append]; exact hframe⟩
    rw [hzero, Nat.zero_add] at he
    rw [← Nonce.toArray_ofNat (by omega)]
    exact he
  · have hstart : ((⟨⟨key, .default, []⟩, false⟩, wire) : Receiver Key × Bytes) =
        (⟨⟨key, ⟨UInt64.ofNat 0⟩, []⟩, false⟩, wire.drop (0 * (tagSize + totalFrameSize))) := by
      rw [Nat.zero_mul, List.drop_zero]
      rfl
    obtain ⟨hbound, plaintext, hdec⟩ := Receiver.run_opens h (k := 0) (by decide) hstart j hj out hout
    rw [Nat.zero_add] at hbound hdec
    refine ⟨plaintext, ?_⟩
    rw [← Nonce.toArray_ofNat (by omega)]
    exact hdec

/-- The cipher that leaves the frame as it is, with a zero tag, on nonce arrays. -/
def plainArrayAead : ArrayAead Unit where
  encrypt _ _ m := .ok (m, List.replicate tagSize 0)
  decrypt _ _ ct _ := .ok ct

theorem plainArrayAead_lawful : plainArrayAead.toAead.Lawful := plainAead_lawful

/-- The default nonce incremented once is `N(1)`, as the first check point of `test_incr_nonce`
has it. -/
theorem default_nonce_increments_to_first_check_point :
    NonceArray.default.increment.map NonceArray.toBytes = some [0, 0, 0, 0, 1, 0, 0, 0, 0, 0, 0, 0] := by
  obtain ⟨hdefault, hincrement, -⟩ :=
    nonces_never_reused_and_in_step plainArrayAead plainArrayAead_lawful ()
  rw [hdefault, hincrement 0 (by decide)]
  rfl

end P2P

end Tendermint
