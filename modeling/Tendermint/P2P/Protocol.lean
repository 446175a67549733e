import Tendermint.Lib.Protobuf
import Tendermint.P2P.Handshake

/-!
# The framing of the handshake's messages

`secret_connection/protocol.rs` and `secret_connection/amino_types.rs`: how the two messages of the
handshake go on the wire, and how the reading half of `share_eph_pubkey` takes the ephemeral key
off it. `share_auth_signature` reads its message through the secret connection, which is not
modelled here.

The ephemeral key is framed by hand: behind the bytes `0x22 0x0a 0x20` for the protobuf version,
and behind amino's total and array lengths `33 32` otherwise; the reader reads one byte of length
and then that many bytes. The authentication message is a protobuf `AuthSigMessage`, written
length-delimited by `prost`, or, for the amino versions, an amino `AuthSigMessage` whose key carries
the five bytes of amino's Ed25519 prefix; the reader reads a fixed `auth_sig_msg_response_len`
bytes, 103 or 106. The amino encoders and decoders exist only in a build with the crate's `amino`
feature, which is not a default one; without it they panic.

For every version and every key of 32 bytes that is not of low order, the first byte of the
ephemeral key's frame is the length of the rest, and the rest decodes to the key; for a 32-byte key
and a 64-byte signature, the authentication message has exactly the length the reader reads, and
decodes to the key and the signature, in every version that the build supports
(`handshake_framing_roundtrip`). The messages are those of the handshake's `authSigMessage`, so the
handshake's agreement holds over the wire.
-/

namespace Tendermint

namespace P2P

open Protobuf

/-! ## The messages -/

/-- `Sum::encode` of `crypto::PublicKey`'s oneof: one bytes field, of the variant's tag. -/
def PublicKeySum.encode : PublicKeySum → Bytes
  | .ed25519 bytes => encodeBytes 1 bytes
  | .secp256k1 bytes => encodeBytes 2 bytes

/-- `crypto::PublicKey::encode_raw`: its `sum`, when set. -/
def encodePublicKey (sum : Option PublicKeySum) : Bytes :=
  (sum.map PublicKeySum.encode).getD []

/-- `crypto::PublicKey::merge_field`: a variant of the oneof replaces the one before. -/
def mergePublicKeyField : FieldMerger (Option PublicKeySum) := fun depth sum tag wireType buf =>
  match tag with
  | 1 => do
    let (bytes, rest) ← mergeBytes wireType buf
    pure (some (.ed25519 bytes), rest)
  | 2 => do
    let (bytes, rest) ← mergeBytes wireType buf
    pure (some (.secp256k1 bytes), rest)
  | _ => do
    let rest ← skipField depth wireType tag buf
    pure (sum, rest)

namespace AuthSigMessage

/-- `p2p::AuthSigMessage::encode_raw`: the key when present, and the signature unless empty. -/
def encode (msg : AuthSigMessage) : Bytes :=
  (msg.pubKey.map fun pubKey => encodeBytes 1 (encodePublicKey pubKey)).getD [] ++
    if msg.sig.isEmpty then [] else encodeBytes 2 msg.sig

/-- `p2p::AuthSigMessage::merge_field`: the key is merged into the one present, or into a default
one. -/
def mergeField : FieldMerger AuthSigMessage := fun depth msg tag wireType buf =>
  match tag with
  | 1 => do
    let (pubKey, rest) ← mergeMessage mergePublicKeyField depth (msg.pubKey.getD none) wireType buf
    pure ({ msg with pubKey := some pubKey }, rest)
  | 2 => do
    let (sig, rest) ← mergeBytes wireType buf
    pure ({ msg with sig }, rest)
  | _ => do
    let rest ← skipField depth wireType tag buf
    pure (msg, rest)

/-- `AuthSigMessage::default()`. -/
def default : AuthSigMessage := ⟨none, []⟩

end AuthSigMessage

/-- `amino_types::AuthSigMessage`: the key and the signature as bytes. -/
structure AminoAuthSigMessage where
  pubKey : Bytes
  sig : Bytes

/-- `PUB_KEY_ED25519_AMINO_PREFIX`: amino's prefix of "tendermint/PubKeyEd25519" and the key's
length. -/
def pubKeyEd25519AminoPrefix : Bytes := [0x16, 0x24, 0xde, 0x64, 0x20]

namespace AminoAuthSigMessage

/-- `AuthSigMessage::new`: the key behind the amino prefix. -/
def new (pubKey : Bytes32) (sig : List.Vector UInt8 64) : AminoAuthSigMessage :=
  ⟨pubKeyEd25519AminoPrefix ++ pubKey.toList, sig.toList⟩

/-- The derived `encode_raw`: each field unless empty. -/
def encode (msg : AminoAuthSigMessage) : Bytes :=
  (if msg.pubKey.isEmpty then [] else encodeBytes 1 msg.pubKey) ++
    if msg.sig.isEmpty then [] else encodeBytes 2 msg.sig

/-- The derived `merge_field`. -/
def mergeField : FieldMerger AminoAuthSigMessage := fun depth msg tag wireType buf =>
  match tag with
  | 1 => do
    let (pubKey, rest) ← mergeBytes wireType buf
    pure ({ msg with pubKey }, rest)
  | 2 => do
    let (sig, rest) ← mergeBytes wireType buf
    pure ({ msg with sig }, rest)
  | _ => do
    let rest ← skipField depth wireType tag buf
    pure (msg, rest)

/-- `TryFrom<AuthSigMessage> for proto::p2p::AuthSigMessage`: the key behind the amino prefix, as an
Ed25519 key. -/
def tryInto (msg : AminoAuthSigMessage) : Except Error AuthSigMessage :=
  if msg.pubKey.length < 5 then .error .protocol
  else if msg.pubKey.take 5 ≠ pubKeyEd25519AminoPrefix then .error .protocol
  else .ok ⟨some (some (.ed25519 (msg.pubKey.drop 5))), msg.sig⟩

end AminoAuthSigMessage

/-! ## The version's encoders and decoders -/

namespace Version

/-- `Version::encode_auth_signature`, in a build with the `amino` feature or without it; `none` is
the panic of an amino version without it. -/
def encodeAuthSignature (amino : Bool) (self : Version) (pubKey : Bytes32)
    (signature : List.Vector UInt8 64) : Option Bytes :=
  if self.isProtobuf then
    some (encodeLengthDelimited
      (AuthSigMessage.encode ⟨some (some (.ed25519 pubKey.toList)), signature.toList⟩))
  else if amino then some (encodeLengthDelimited (AminoAuthSigMessage.new pubKey signature).encode)
  else none

/-- `Version::auth_sig_msg_response_len`. -/
def authSigMsgResponseLen (self : Version) : Nat :=
  if self.isProtobuf then 103 else 106

/-- `Version::decode_auth_signature`, in a build with the `amino` feature or without it. -/
def decodeAuthSignature (amino : Bool) (self : Version) (bytes : Bytes) :
    ExceptT Error Option AuthSigMessage :=
  if self.isProtobuf then
    Rust.result ((decodeLengthDelimitedMessage AuthSigMessage.mergeField AuthSigMessage.default
      bytes).mapError .decode)
  else if amino then
    Rust.result do
      let aminoMsg ← (decodeLengthDelimitedMessage AminoAuthSigMessage.mergeField ⟨[], []⟩
        bytes).mapError .decode
      aminoMsg.tryInto
  else ExceptT.lift none

end Version

/-! ## The reading half of the ephemeral key's exchange -/

/-- `read_exact` into a buffer of `n` bytes, from the bytes the peer sent: those bytes and the
rest, or the I/O error of a stream that ends first. -/
def readExact (n : Nat) (received : Bytes) : Except Error (Bytes × Bytes) :=
  if n ≤ received.length then .ok (received.take n, received.drop n) else .error .io

/-- `share_eph_pubkey` after its write: one byte of length, the bytes it counts, and the key they
decode to. -/
def shareEphPubkeyRead (protocolVersion : Version) (received : Bytes) :
    Except Error (Bytes32 × Bytes) :=
  match received with
  | [] => .error .io
  | responseLen :: rest => do
    let (buf, rest) ← readExact responseLen.toNat rest
    let remoteEphPubkey ← protocolVersion.decodeInitialHandshake buf
    pure (remoteEphPubkey, rest)

/-! ## The messages read back -/

/-- A written key of either variant comes back, into any key before it. -/
theorem PublicKeySum.mergeFields_encode (s : PublicKeySum) (h : s.encode.length < 2 ^ 64)
    (depth : Nat) (sum : Option PublicKeySum) {fuel : Nat} (hfuel : s.encode.length ≤ fuel) :
    mergeFields mergePublicKeyField depth fuel sum s.encode = .ok (some s) := by
  cases s with
  | ed25519 bytes =>
    refine mergeFields_encodeBytes (by decide) (by decide) ?_ hfuel
    simp only [mergePublicKeyField, mergeBytes_append (lt_trans (length_lt_encodeBytes 1 bytes) h)]
    rfl
  | secp256k1 bytes =>
    refine mergeFields_encodeBytes (by decide) (by decide) ?_ hfuel
    simp only [mergePublicKeyField, mergeBytes_append (lt_trans (length_lt_encodeBytes 2 bytes) h)]
    rfl

theorem mergeFields_encodePublicKey (sum : Option PublicKeySum)
    (h : (encodePublicKey sum).length < 2 ^ 64) (depth : Nat) :
    mergeFields mergePublicKeyField depth (encodePublicKey sum).length none (encodePublicKey sum) =
      .ok sum := by
  cases sum with
  | none => exact mergeFields_nil _ _
  | some s => exact PublicKeySum.mergeFields_encode s h depth none (Nat.le_refl _)

namespace AuthSigMessage

/-- The key's field, a nested message, merged into a message without a key. -/
theorem mergeField_pubKey {depth : Nat} (hdepth : depth ≠ 0) (sig : Bytes)
    (sum : Option PublicKeySum) (h : (encodePublicKey sum).length < 2 ^ 64) (rest : Bytes) :
    mergeField depth ⟨none, sig⟩ 1 .lengthDelimited
        (encodeLengthDelimited (encodePublicKey sum) ++ rest) = .ok (⟨some sum, sig⟩, rest) := by
  simp only [mergeField, Option.getD_none, mergeMessage_append h hdepth,
    mergeFields_encodePublicKey sum h, Rust.ok_bind]
  rfl

theorem mergeField_sig (depth : Nat) (msg : AuthSigMessage) {sig : Bytes} (h : sig.length < 2 ^ 64)
    (rest : Bytes) :
    mergeField depth msg 2 .lengthDelimited (encodeLengthDelimited sig ++ rest) =
      .ok ({ msg with sig }, rest) := by
  simp only [mergeField, mergeBytes_append h]
  rfl

/-- The fields of a written message, merged into the default message, give the message back. -/
theorem mergeFields_encode {depth : Nat} (hdepth : depth ≠ 0) (msg : AuthSigMessage)
    (h : msg.encode.length < 2 ^ 64) {fuel : Nat} (hfuel : msg.encode.length ≤ fuel) :
    mergeFields mergeField depth fuel default msg.encode = .ok msg := by
  obtain ⟨pubKey, sig⟩ := msg
  have hsigLen := length_le_optionalBytes 2 sig
  -- the signature is the last field, left out when empty
  have hsig : ∀ (pubKey : Option (Option PublicKeySum)) (fuel : Nat),
      (if sig.isEmpty then [] else encodeBytes 2 sig).length ≤ fuel →
      (if sig.isEmpty then [] else encodeBytes 2 sig).length < 2 ^ 64 →
      mergeFields mergeField depth fuel ⟨pubKey, []⟩ (if sig.isEmpty then [] else encodeBytes 2 sig) =
        .ok ⟨pubKey, sig⟩ := fun pubKey fuel hfuel hlt =>
    mergeFields_optionalBytes (by decide) (by decide) (fun hnil => by rw [hnil])
      (fun _ => mergeField_sig depth _ (lt_of_le_of_lt hsigLen hlt) []) hfuel
  show mergeFields mergeField depth fuel ⟨none, []⟩ _ = _
  dsimp only [encode] at h hfuel ⊢
  cases pubKey with
  | none =>
    rw [Option.map_none, Option.getD_none, List.nil_append] at h hfuel ⊢
    exact hsig none fuel hfuel h
  | some sum =>
    rw [Option.map_some, Option.getD_some] at h hfuel ⊢
    have hfirst := length_lt_encodeBytes_append 1 (encodePublicKey sum)
      (if sig.isEmpty then [] else encodeBytes 2 sig)
    have hpk : (encodePublicKey sum).length < 2 ^ 64 :=
      lt_trans (lt_of_lt_of_le (length_lt_encodeBytes 1 _) (by simp)) h
    rw [mergeFields_encodeBytes_append (by decide) (by decide)
      (mergeField_pubKey hdepth [] sum hpk _) hfuel]
    exact hsig (some sum) (fuel - 1) (by omega) (by omega)

/-- `decode_length_delimited` of a written message. -/
theorem decodeLengthDelimited_encode (msg : AuthSigMessage) (h : msg.encode.length < 2 ^ 64) :
    decodeLengthDelimitedMessage mergeField default (encodeLengthDelimited msg.encode) = .ok msg :=
  decodeLengthDelimitedMessage_encode h (mergeFields_encode (by decide) msg h (Nat.le_refl _))

end AuthSigMessage

namespace AminoAuthSigMessage

theorem mergeField_pubKey (depth : Nat) (msg : AminoAuthSigMessage) {pubKey : Bytes}
    (h : pubKey.length < 2 ^ 64) (rest : Bytes) :
    mergeField depth msg 1 .lengthDelimited (encodeLengthDelimited pubKey ++ rest) =
      .ok ({ msg with pubKey }, rest) := by
  simp only [mergeField, mergeBytes_append h]
  rfl

theorem mergeField_sig (depth : Nat) (msg : AminoAuthSigMessage) {sig : Bytes}
    (h : sig.length < 2 ^ 64) (rest : Bytes) :
    mergeField depth msg 2 .lengthDelimited (encodeLengthDelimited sig ++ rest) =
      .ok ({ msg with sig }, rest) := by
  simp only [mergeField, mergeBytes_append h]
  rfl

/-- The fields of a written amino message, merged into the empty one, give the message back. -/
theorem mergeFields_encode (depth : Nat) (msg : AminoAuthSigMessage) (h : msg.encode.length < 2 ^ 64)
    {fuel : Nat} (hfuel : msg.encode.length ≤ fuel) :
    mergeFields mergeField depth fuel ⟨[], []⟩ msg.encode = .ok msg := by
  obtain ⟨pubKey, sig⟩ := msg
  have hsigLen := length_le_optionalBytes 2 sig
  -- the signature is the last field, left out when empty
  have hsig : ∀ (pubKey : Bytes) (fuel : Nat),
      (if sig.isEmpty then [] else encodeBytes 2 sig).length ≤ fuel →
      (if sig.isEmpty then [] else encodeBytes 2 sig).length < 2 ^ 64 →
      mergeFields mergeField depth fuel ⟨pubKey, []⟩ (if sig.isEmpty then [] else encodeBytes 2 sig) =
        .ok ⟨pubKey, sig⟩ := fun pubKey fuel hfuel hlt =>
    mergeFields_optionalBytes (by decide) (by decide) (fun hnil => by rw [hnil])
      (fun _ => mergeField_sig depth _ (lt_of_le_of_lt hsigLen hlt) []) hfuel
  dsimp only [encode] at h hfuel ⊢
  -- the key is left out when empty too
  cases pubKey with
  | nil =>
    rw [if_pos List.isEmpty_nil, List.nil_append] at h hfuel ⊢
    exact hsig [] fuel hfuel h
  | cons b bs =>
    have hne : (b :: bs).isEmpty = false := rfl
    rw [hne, if_neg Bool.false_ne_true] at h hfuel ⊢
    have hfirst := length_lt_encodeBytes_append 1 (b :: bs)
      (if sig.isEmpty then [] else encodeBytes 2 sig)
    have hpk : (b :: bs).length < 2 ^ 64 :=
      lt_trans (lt_of_lt_of_le (length_lt_encodeBytes 1 _) (by simp)) h
    rw [mergeFields_encodeBytes_append (by decide) (by decide) (mergeField_pubKey depth _ hpk _) hfuel]
    exact hsig (b :: bs) (fuel - 1) (by omega) (by omega)

theorem decodeLengthDelimited_encode (msg : AminoAuthSigMessage) (h : msg.encode.length < 2 ^ 64) :
    decodeLengthDelimitedMessage mergeField ⟨[], []⟩ (encodeLengthDelimited msg.encode) = .ok msg :=
  decodeLengthDelimitedMessage_encode h (mergeFields_encode _ msg h (Nat.le_refl _))

/-- The key of a new message comes out of the amino prefix as an Ed25519 key. -/
theorem tryInto_new (pubKey : Bytes32) (sig : List.Vector UInt8 64) :
    (new pubKey sig).tryInto = .ok ⟨some (some (.ed25519 pubKey.toList)), sig.toList⟩ := by
  have hprefix : pubKeyEd25519AminoPrefix.length = 5 := rfl
  have hlen : (pubKeyEd25519AminoPrefix ++ pubKey.toList).length = 37 := by
    rw [List.length_append, hprefix, pubKey.toList_length]
  rw [tryInto, new, if_neg (by rw [hlen]; decide), List.take_left' hprefix,
    if_neg (not_not.mpr rfl), List.drop_left' hprefix]

end AminoAuthSigMessage

/-- The signature's field: 64 bytes behind their key and length. -/
theorem length_sigField (sig : List.Vector UInt8 64) :
    (if sig.toList.isEmpty then [] else encodeBytes 2 sig.toList).length = 66 := by
  have hsig : sig.toList.isEmpty = false :=
    List.isEmpty_eq_false_iff.mpr (List.ne_nil_of_length_pos (by rw [sig.toList_length]; decide))
  rw [hsig, if_neg Bool.false_ne_true,
    length_encodeBytes (by decide) (by rw [sig.toList_length]; decide), sig.toList_length]

/-- The protobuf message of a 32-byte key and a 64-byte signature takes 102 bytes. -/
theorem AuthSigMessage.length_encode_ed25519 (pubKey : Bytes32) (sig : List.Vector UInt8 64) :
    (AuthSigMessage.encode ⟨some (some (.ed25519 pubKey.toList)), sig.toList⟩).length = 102 := by
  have hkey : (encodeBytes 1 pubKey.toList).length = 34 := by
    rw [length_encodeBytes (by decide) (by rw [pubKey.toList_length]; decide), pubKey.toList_length]
  have hpub : (encodeBytes 1 (encodeBytes 1 pubKey.toList)).length = 36 := by
    rw [length_encodeBytes (by decide) (by rw [hkey]; decide), hkey]
  show (encodeBytes 1 (encodeBytes 1 pubKey.toList) ++
    if sig.toList.isEmpty then [] else encodeBytes 2 sig.toList).length = 102
  rw [List.length_append, hpub, length_sigField]

/-- The amino message of a 32-byte key and a 64-byte signature takes 105 bytes. -/
theorem AminoAuthSigMessage.length_encode_new (pubKey : Bytes32) (sig : List.Vector UInt8 64) :
    (AminoAuthSigMessage.new pubKey sig).encode.length = 105 := by
  have hprefixed : (pubKeyEd25519AminoPrefix ++ pubKey.toList).length = 37 := by
    rw [List.length_append, pubKey.toList_length]
    rfl
  have hkey : (encodeBytes 1 (pubKeyEd25519AminoPrefix ++ pubKey.toList)).length = 39 := by
    rw [length_encodeBytes (by decide) (by rw [hprefixed]; decide), hprefixed]
  -- the prefixed key is never empty
  have hprefixedNe : (pubKeyEd25519AminoPrefix ++ pubKey.toList).isEmpty = false := rfl
  show ((if (pubKeyEd25519AminoPrefix ++ pubKey.toList).isEmpty then []
      else encodeBytes 1 (pubKeyEd25519AminoPrefix ++ pubKey.toList)) ++
    if sig.toList.isEmpty then [] else encodeBytes 2 sig.toList).length = 105
  rw [hprefixedNe, if_neg Bool.false_ne_true, List.length_append, hkey, length_sigField]

namespace Version

theorem encodeAuthSignature_isSome (amino : Bool) (self : Version) (pubKey : Bytes32)
    (signature : List.Vector UInt8 64) :
    (self.encodeAuthSignature amino pubKey signature).isSome = (self.isProtobuf || amino) := by
  rw [encodeAuthSignature]
  cases self.isProtobuf <;> cases amino <;> rfl

/-- A build that can write the authentication message of the version writes one. -/
theorem exists_encodeAuthSignature {amino : Bool} {self : Version}
    (h : self.isProtobuf = true ∨ amino = true) (pubKey : Bytes32)
    (signature : List.Vector UInt8 64) :
    ∃ bytes, self.encodeAuthSignature amino pubKey signature = some bytes := by
  have hsome : (self.encodeAuthSignature amino pubKey signature).isSome := by
    rw [encodeAuthSignature_isSome, Bool.or_eq_true]
    exact h
  exact Option.isSome_iff_exists.mp hsome

/-- A written authentication message has the length its reader reads, and decodes to the key and
the signature. -/
theorem encodeAuthSignature_spec {amino : Bool} {self : Version} {pubKey : Bytes32}
    {signature : List.Vector UInt8 64} {bytes : Bytes}
    (h : self.encodeAuthSignature amino pubKey signature = some bytes) :
    bytes.length = self.authSigMsgResponseLen ∧
      (self.decodeAuthSignature amino bytes).run =
        some (.ok ⟨some (some (.ed25519 pubKey.toList)), signature.toList⟩) := by
  rw [encodeAuthSignature] at h
  cases hv : self.isProtobuf with
  | true =>
    rw [if_pos hv, Option.some.injEq] at h
    subst h
    have hlen := AuthSigMessage.length_encode_ed25519 pubKey signature
    constructor
    · rw [length_encodeLengthDelimited (by rw [hlen]; decide), hlen, authSigMsgResponseLen,
        if_pos hv]
    · rw [decodeAuthSignature, if_pos hv,
        AuthSigMessage.decodeLengthDelimited_encode _ (by rw [hlen]; decide)]
      rfl
  | false =>
    have hnp : ¬ self.isProtobuf = true := by
      rw [hv]
      exact Bool.false_ne_true
    rw [if_neg hnp] at h
    -- only a build with the `amino` feature writes the amino message
    cases amino with
    | false =>
      rw [if_neg Bool.false_ne_true] at h
      cases h
    | true =>
      rw [if_pos rfl, Option.some.injEq] at h
      subst h
      have hlen := AminoAuthSigMessage.length_encode_new pubKey signature
      constructor
      · rw [length_encodeLengthDelimited (by rw [hlen]; decide), hlen, authSigMsgResponseLen,
          if_neg hnp]
      · rw [decodeAuthSignature, if_neg hnp, if_pos rfl,
          AminoAuthSigMessage.decodeLengthDelimited_encode _ (by rw [hlen]; decide)]
        simp only [Except.mapError, Rust.ok_bind, AminoAuthSigMessage.tryInto_new]
        rfl

/-- Without the `amino` feature, the amino versions panic in both directions. -/
theorem encodeAuthSignature_of_not_amino {self : Version} (hv : self.isProtobuf = false)
    (pubKey : Bytes32) (signature : List.Vector UInt8 64) :
    self.encodeAuthSignature false pubKey signature = none := by
  rw [encodeAuthSignature, hv]
  rfl

end Version

/-! ## The ephemeral key's frame -/

/-- The frame of an ephemeral key: a byte that counts the bytes after it, and bytes that decode to
the key unless it is of low order. -/
theorem encodeInitialHandshake_frame (self : Version) (k : Bytes32) :
    ∃ len rest, self.encodeInitialHandshake k = len :: rest ∧ len.toNat = rest.length ∧
      self.decodeInitialHandshake rest = if isLowOrderPoint k then .error .lowOrderKey else .ok k := by
  have hk : k.toList.length = 32 := k.toList_length
  cases hv : self.isProtobuf with
  | true =>
    -- behind `0x22`, the protobuf field header `0x0a 0x20` of the 32 bytes
    have hframe : ([0x0a, 0x20] ++ k.toList).length = 34 ∧
        ([0x0a, 0x20] ++ k.toList).take 2 = [0x0a, 0x20] := ⟨by simp [hk], by simp⟩
    have hkey : (⟨([0x0a, 0x20] ++ k.toList).drop 2, by simp⟩ : Bytes32) = k :=
      Subtype.ext (@List.drop_left _ [0x0a, 0x20] k.toList)
    refine ⟨0x22, [0x0a, 0x20] ++ k.toList, ?_, by rw [hframe.1]; rfl, ?_⟩
    · rw [Version.encodeInitialHandshake, if_pos hv]
      rfl
    · rw [Version.decodeInitialHandshake, if_pos hv, dif_pos hframe, hkey]
      simp only [Rust.pure_eq_ok, Rust.ok_bind]
      cases isLowOrderPoint k <;> rfl
  | false =>
    -- behind amino's total length `33`, the array's length `32`
    have hframe : (32 :: k.toList).length = 33 ∧ (32 :: k.toList).head? = some 32 :=
      ⟨by simp [hk], rfl⟩
    have hkey : (⟨(32 :: k.toList).drop 1, by simp⟩ : Bytes32) = k := Subtype.ext rfl
    refine ⟨33, 32 :: k.toList, ?_, by rw [hframe.1]; rfl, ?_⟩
    · rw [Version.encodeInitialHandshake, if_neg (by simp [hv])]
      rfl
    · rw [Version.decodeInitialHandshake, if_neg (by simp [hv]), dif_pos hframe, hkey]
      simp only [Rust.pure_eq_ok, Rust.ok_bind]
      cases isLowOrderPoint k <;> rfl

/-- The handshake's messages go over the wire and back: the ephemeral key's first byte counts the
bytes after it, which decode to the key; the authentication message, in a build that can write it,
has the length its reader reads and decodes to the key and the signature. -/
theorem handshake_framing_roundtrip (amino : Bool) (v : Version) :
    (∀ k : Bytes32, isLowOrderPoint k = false →
      ∃ len rest, v.encodeInitialHandshake k = len :: rest ∧ len.toNat = rest.length ∧
        v.decodeInitialHandshake rest = .ok k) ∧
    ∀ (pubKey : Bytes32) (signature : List.Vector UInt8 64), v.isProtobuf = true ∨ amino = true →
      ∃ bytes, v.encodeAuthSignature amino pubKey signature = some bytes ∧
        bytes.length = v.authSigMsgResponseLen ∧
        (v.decodeAuthSignature amino bytes).run =
          some (.ok ⟨some (some (.ed25519 pubKey.toList)), signature.toList⟩) := by
  refine ⟨fun k hk => ?_, fun pubKey signature h => ?_⟩
  · obtain ⟨len, rest, henc, hlen, hdec⟩ := encodeInitialHandshake_frame v k
    rw [hk, if_neg Bool.false_ne_true] at hdec
    exact ⟨len, rest, henc, hlen, hdec⟩
  · obtain ⟨bytes, henc⟩ := Version.exists_encodeAuthSignature h pubKey signature
    exact ⟨bytes, henc, Version.encodeAuthSignature_spec henc⟩

/-- In the default build, without the `amino` feature, v0.33 panics when it writes the
authentication message. -/
theorem encode_auth_signature_panics_without_amino :
    Version.v0_33.encodeAuthSignature false Bytes32.zero (List.Vector.replicate 64 0) = none :=
  Version.encodeAuthSignature_of_not_amino rfl _ _

end P2P

end Tendermint
