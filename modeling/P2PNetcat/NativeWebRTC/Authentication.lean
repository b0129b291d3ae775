import P2PNetcat.NativeWebRTC.Wire
import P2PNetcat.Library.Fallible
import Mathlib.Data.Set.Function

/-!
# What an accepted authentication response proves

The version 2 payload is read back field by field, so a signature over it is
bound to one PeerId, service, challenge and signaling transcript.
-/

namespace P2PNetcat.NativeWebRTC
open List ByteCodec Sha256 Fallible

theorem decodeAuthResponse_encode {version : UInt8} {publicKey signature response : Bytes}
    (h : encodeAuthResponse version publicKey signature = .ok response) :
    decodeAuthResponse version response = .ok (publicKey, signature) := by
  unfold encodeAuthResponse at h
  split at h
  · cases h
  rename_i hsize
  have hp : bigEndianValue (bigEndian 2 publicKey.length) = publicKey.length :=
    bigEndianValue_bigEndian 2 _ (by omega)
  have hs : bigEndianValue (bigEndian 2 signature.length) = signature.length :=
    bigEndianValue_bigEndian 2 _ (by omega)
  cases h
  simp only [bigEndian, nil_append, cons_append] at hp hs ⊢
  simp only [decodeAuthResponse, hp, hs, ne_eq, not_true_eq_false, if_false]
  rw [if_neg (by simp; omega)]
  simp

theorem decodeAuthResponse_other {version other : UInt8} {publicKey signature response : Bytes}
    (hne : version ≠ other) (h : encodeAuthResponse version publicKey signature = .ok response) :
    decodeAuthResponse other response = .error "unsupported WebRTC authentication response" := by
  unfold encodeAuthResponse at h
  split at h
  · cases h
  · cases h
    simp [decodeAuthResponse, bigEndian, hne]

section
variable {L : Libp2p}
variable {payload challenge response : Bytes} {transcript : AuthTranscript} {peerID : PeerID}
  {service : UInt16} {version : UInt8}
variable {key : L.PrivKey} {payloadFor : PeerID → Except String Bytes} {expected : PeerID}

theorem authPayloadV2_ok (h : authPayloadV2 L peerID service challenge transcript = .ok payload) :
    challenge.length = 32 ∧ transcript.sessionID.length ≤ 128 ∧
      payload = lengthDelimited (authFieldsV2 L peerID service challenge transcript) := by
  unfold authPayloadV2 at h
  split at h
  · cases h
  rename_i hlen
  obtain ⟨_, _, h⟩ := bind_eq_ok.mp h
  split at h
  · cases h
  rename_i hsession
  split at h
  · cases h
  split at h
  · cases h
  cases h
  exact ⟨by omega, by omega, rfl⟩

theorem authPayload_ok (h : authPayload L peerID service challenge = .ok payload) :
    ∃ rest, payload = byteOf 'p' :: rest := by
  unfold authPayload at h
  split at h
  · cases h
  obtain ⟨room, _, h⟩ := bind_eq_ok.mp h
  cases h
  exact ⟨_, rfl⟩

theorem authPayloadV2_head (h : authPayloadV2 L peerID service challenge transcript = .ok payload) :
    ∃ rest, payload = 0 :: rest := by
  obtain ⟨-, -, rfl⟩ := authPayloadV2_ok h
  exact ⟨_, rfl⟩

theorem authPayload_ne_authPayloadV2 {other : PeerID} {service' : UInt16}
    {challenge' payload' : Bytes} (h : authPayload L peerID service challenge = .ok payload)
    (h' : authPayloadV2 L other service' challenge' transcript = .ok payload') :
    payload ≠ payload' := by
  obtain ⟨rest, rfl⟩ := authPayload_ok h
  obtain ⟨rest', rfl⟩ := authPayloadV2_head h'
  intro heq
  exact absurd (cons.inj heq).1 (by decide)

theorem authPayloadV2_injective {service' : UInt16}
    {challenge' : Bytes} {transcript' : AuthTranscript}
    (h : authPayloadV2 L peerID service challenge transcript = .ok payload)
    (h' : authPayloadV2 L peerID service' challenge' transcript' = .ok payload) :
    service = service' ∧ challenge = challenge' ∧ transcript.sessionID = transcript'.sessionID ∧
      sha256 transcript.offerSDP = sha256 transcript'.offerSDP ∧
      sha256 transcript.answerSDP = sha256 transcript'.answerSDP := by
  obtain ⟨hc, hs, hp⟩ := authPayloadV2_ok h
  obtain ⟨hc', hs', hp'⟩ := authPayloadV2_ok h'
  have heq := hp.symm.trans hp'
  -- The first five fields are the same on both sides, so the length of a PeerId needs no bound.
  simp only [authFieldsV2, lengthDelimited_cons] at heq
  iterate 5
    replace heq := append_cancel_left (append_cancel_left heq)
  simp only [← lengthDelimited_cons] at heq
  have hfields := lengthDelimited_injective
    (by simp only [forall_mem_cons, sha256_length, bigEndian_length, hc]; simp; omega)
    (by simp only [forall_mem_cons, sha256_length, bigEndian_length, hc']; simp; omega) heq
  simp only [cons.injEq, and_true] at hfields
  obtain ⟨hservice, hsession, hchallenge, hoffer, hanswer⟩ := hfields
  refine ⟨UInt16.toNat_inj.mp ?_, hchallenge, hsession, hoffer, hanswer⟩
  exact bigEndian_injective 2 (by simpa using service.toNat_lt) (by simpa using service'.toNat_lt)
    hservice

theorem signResponse_ok (h : signResponse L version (some key) payloadFor = .ok response) :
    ∃ peerID payload signature publicKey, L.idFromPrivateKey key = .ok peerID ∧
      payloadFor peerID = .ok payload ∧ L.sign key payload = .ok signature ∧
      L.marshalPublicKey (L.getPublic key) = .ok publicKey ∧
      encodeAuthResponse version publicKey signature = .ok response := by
  obtain ⟨peerID, hid, h⟩ := bind_eq_ok.mp h
  obtain ⟨payload, hpayload, h⟩ := bind_eq_ok.mp h
  obtain ⟨signature, hsign, h⟩ := bind_eq_ok.mp h
  obtain ⟨publicKey, hkey, h⟩ := bind_eq_ok.mp h
  exact ⟨peerID, payload, signature, publicKey, hid, hpayload, hsign, hkey, h⟩

theorem verifyResponse_true {value : Bytes}
    (h : verifyResponse L version value expected payloadFor = .ok true) :
    ∃ publicBytes signature publicKey payload,
      decodeAuthResponse version value = .ok (publicBytes, signature) ∧
      L.unmarshalPublicKey publicBytes = .ok publicKey ∧
      L.idFromPublicKey publicKey = .ok expected ∧ payloadFor expected = .ok payload ∧
      L.verify publicKey payload signature = .ok true := by
  obtain ⟨⟨publicBytes, signature⟩, hdecode, h⟩ := bind_eq_ok.mp h
  obtain ⟨publicKey, hkey, h⟩ := bind_eq_ok.mp h
  obtain ⟨actual, hid, h⟩ := bind_eq_ok.mp h
  split at h
  · cases h
  rename_i hactual
  obtain ⟨payload, hpayload, hverify⟩ := bind_eq_ok.mp h
  obtain rfl := not_not.mp hactual
  exact ⟨publicBytes, signature, publicKey, payload, hdecode, hkey, hid, hpayload, hverify⟩

/-- An accepted response carries the key of the expected PeerId and was made
over the very payload the verifier computes. -/
theorem verifyResponse_signed (laws : L.Lawful) {signed verified : PeerID → Except String Bytes}
    (hsign : signResponse L version (some key) signed = .ok response)
    (hverify : verifyResponse L version response expected verified = .ok true) :
    L.idFromPrivateKey key = .ok expected ∧
      ∃ payload, signed expected = .ok payload ∧ verified expected = .ok payload := by
  obtain ⟨peerID, payload, signature, publicKey, hid, hpayload, hsig, hmarshal, henc⟩ :=
    signResponse_ok hsign
  obtain ⟨publicBytes, signature', publicKey', payload', hdec, hunmarshal, hid', hpayload', hok⟩ :=
    verifyResponse_true hverify
  rw [decodeAuthResponse_encode henc] at hdec
  obtain ⟨rfl, rfl⟩ := Prod.mk.inj (Except.ok.inj hdec)
  obtain ⟨rfl, rfl⟩ := (laws.verify_signed hsig publicKey' payload').mp hok
  rw [laws.id_private] at hid ⊢
  obtain rfl := Except.ok.inj (hid.symm.trans hid')
  exact ⟨hid, payload', hpayload, hpayload'⟩

theorem verifyResponse_of_signResponse (laws : L.Lawful)
    (hid : L.idFromPrivateKey key = .ok expected)
    (hsign : signResponse L version (some key) payloadFor = .ok response) :
    verifyResponse L version response expected payloadFor = .ok true := by
  obtain ⟨peerID, payload, signature, publicKey, hid', hpayload, hsig, hmarshal, henc⟩ :=
    signResponse_ok hsign
  obtain rfl := Except.ok.inj (hid'.symm.trans hid)
  rw [laws.id_private] at hid
  have hverify := (laws.verify_signed hsig (L.getPublic key) payload).mpr ⟨rfl, rfl⟩
  simp [verifyResponse, decodeAuthResponse_encode henc, laws.unmarshal_marshal hmarshal, hid,
    hpayload, hverify, bind, Except.bind]

theorem verifyAuthResponseV2_of_v1 {publicKey signature : Bytes} (expected : PeerID)
    (service : UInt16) (challenge : Bytes) (transcript : AuthTranscript)
    (h : encodeAuthResponse authResponseVersionV1 publicKey signature = .ok response) :
    verifyAuthResponseV2 L response expected service challenge transcript =
      .error "unsupported WebRTC authentication response" := by
  have hdec := decodeAuthResponse_other
    (show authResponseVersionV1 ≠ authResponseVersionV2 by decide) h
  simp [verifyAuthResponseV2, verifyResponse, hdec, bind, Except.bind]

/-- A version 2 response convinces a verifier only of the PeerId, service,
challenge and transcript it was signed for, and version 1 proofs never pass as
version 2 ones. -/
theorem authResponseV2_binds_transcript (laws : L.Lawful) :
    (∀ (key : L.PrivKey) (service service' : UInt16) (challenge challenge' response : Bytes)
      (transcript transcript' : AuthTranscript) (expected : PeerID),
      Set.InjOn sha256 {transcript.offerSDP, transcript.answerSDP,
        transcript'.offerSDP, transcript'.answerSDP} →
      signAuthResponseV2 L (some key) service challenge transcript = .ok response →
      verifyAuthResponseV2 L response expected service' challenge' transcript' = .ok true →
      L.idFromPrivateKey key = .ok expected ∧ service = service' ∧ challenge = challenge' ∧
        transcript.sessionID = transcript'.sessionID ∧
        transcript.offerSDP = transcript'.offerSDP ∧
        transcript.answerSDP = transcript'.answerSDP) ∧
    (∀ (peerID peerID' : PeerID) (service service' : UInt16)
      (challenge challenge' payload payload' : Bytes) (transcript : AuthTranscript),
      authPayload L peerID service challenge = .ok payload →
      authPayloadV2 L peerID' service' challenge' transcript = .ok payload' →
      payload ≠ payload') ∧
    (∀ (key : L.PrivKey) (service service' : UInt16) (challenge challenge' response : Bytes)
      (transcript : AuthTranscript) (expected : PeerID),
      signAuthResponse L (some key) service challenge = .ok response →
      verifyAuthResponseV2 L response expected service' challenge' transcript =
        .error "unsupported WebRTC authentication response") := by
  refine ⟨?_, ?_, ?_⟩
  · intro key service service' challenge challenge' response transcript transcript' expected
      hsha hsign hverify
    obtain ⟨hid, payload, hsigned, hverified⟩ := verifyResponse_signed laws hsign hverify
    obtain ⟨hservice, hchallenge, hsession, hoffer, hanswer⟩ :=
      authPayloadV2_injective hsigned hverified
    exact ⟨hid, hservice, hchallenge, hsession, hsha (by simp) (by simp) hoffer,
      hsha (by simp) (by simp) hanswer⟩
  · intro peerID peerID' service service' challenge challenge' payload payload' transcript h h'
    exact authPayload_ne_authPayloadV2 h h'
  · intro key service service' challenge challenge' response transcript expected hsign
    obtain ⟨_, _, signature, publicKey, _, _, _, _, henc⟩ := signResponse_ok hsign
    exact verifyAuthResponseV2_of_v1 expected service' challenge' transcript henc

end

section Example

def transparentLibp2p : Libp2p where
  PrivKey := Bytes
  PubKey := Bytes
  getPublic key := key
  idFromPrivateKey key := .ok (0 :: 0x24 :: 8 :: 1 :: 0x12 :: 0x20 :: key)
  idFromPublicKey key := .ok (0 :: 0x24 :: 8 :: 1 :: 0x12 :: 0x20 :: key)
  idString id := id.flatMap fun b => decimal b.toNat
  marshalPublicKey key := .ok (8 :: 1 :: 0x12 :: 0x20 :: key)
  unmarshalPublicKey value := .ok (value.drop 4)
  sign key message := .ok (replicate key.length 1 ++ 0 :: (key ++ message))
  verify key message signature :=
    .ok (decide (signature = replicate key.length 1 ++ 0 :: (key ++ message)))

theorem replicate_one_injective {m n : Nat} {xs ys : Bytes}
    (h : replicate m (1 : UInt8) ++ 0 :: xs = replicate n 1 ++ 0 :: ys) :
    m = n ∧ xs = ys := by
  induction m generalizing n with
  | zero =>
    cases n with
    | zero => simpa using h
    | succ n => simp [replicate_succ] at h
  | succ m ih =>
    cases n with
    | zero => simp [replicate_succ] at h
    | succ n =>
      obtain ⟨hmn, hxy⟩ := ih (n := n) (by simpa [replicate_succ] using h)
      exact ⟨by omega, hxy⟩

theorem transparentLibp2p_lawful : transparentLibp2p.Lawful where
  id_private _ := rfl
  unmarshal_marshal := by
    intro key value h
    cases h
    rfl
  verify_signed := by
    intro k message signature h key other
    cases h
    constructor
    · intro hv
      have heq := of_decide_eq_true (Except.ok.inj hv)
      obtain ⟨hlen, hrest⟩ := replicate_one_injective heq
      obtain ⟨rfl, rfl⟩ := append_inj hrest hlen
      exact ⟨rfl, rfl⟩
    · rintro ⟨rfl, rfl⟩
      simp [transparentLibp2p]

def exampleChallenge : Bytes := replicate 32 0x41

def exampleTranscript : AuthTranscript where
  sessionID := ascii "0123456789abcdef0123456789abcdef"
  offerSDP := ascii "v=0\r\na=fingerprint:sha-256 OFFER\r\n"
  answerSDP := ascii "v=0\r\na=fingerprint:sha-256 ANSWER\r\n"

def examplePeerID : PeerID := 0 :: 0x24 :: 8 :: 1 :: 0x12 :: 0x20 :: replicate 32 7

theorem injOn_pair {offer answer : Bytes} (hne : sha256 offer ≠ sha256 answer) :
    Set.InjOn sha256 {offer, answer, offer, answer} := by
  intro x hx y hy hxy
  simp only [Set.mem_insert_iff, Set.mem_singleton_iff] at hx hy
  have hx' : x = offer ∨ x = answer := by tauto
  have hy' : y = offer ∨ y = answer := by tauto
  rcases hx' with rfl | rfl <;> rcases hy' with rfl | rfl
  · rfl
  · exact absurd hxy hne
  · exact absurd hxy.symm hne
  · rfl

theorem exampleTranscript_injOn : Set.InjOn sha256 {exampleTranscript.offerSDP,
    exampleTranscript.answerSDP, exampleTranscript.offerSDP, exampleTranscript.answerSDP} :=
  injOn_pair (by decide +kernel)

theorem authResponseV2_binds_transcript_example :
    ∃ response, signAuthResponseV2 transparentLibp2p (some (replicate 32 7)) 31337
        exampleChallenge exampleTranscript = .ok response ∧
      verifyAuthResponseV2 transparentLibp2p response examplePeerID 31337
        exampleChallenge exampleTranscript = .ok true ∧
      transparentLibp2p.idFromPrivateKey (replicate 32 7) = .ok examplePeerID := by
  cases hsign : signAuthResponseV2 transparentLibp2p (some (replicate 32 7)) 31337
      exampleChallenge exampleTranscript with
  | error err =>
    have hok : (signAuthResponseV2 transparentLibp2p (some (replicate 32 7)) 31337
        exampleChallenge exampleTranscript).isOk = true := by decide +kernel
    rw [hsign] at hok
    cases hok
  | ok response =>
    have hverify : verifyAuthResponseV2 transparentLibp2p response examplePeerID 31337
        exampleChallenge exampleTranscript = .ok true :=
      verifyResponse_of_signResponse transparentLibp2p_lawful rfl hsign
    exact ⟨response, rfl, hverify, ((authResponseV2_binds_transcript transparentLibp2p_lawful).1
      _ _ _ _ _ _ _ _ _ exampleTranscript_injOn hsign hverify).1⟩

end Example

end P2PNetcat.NativeWebRTC
