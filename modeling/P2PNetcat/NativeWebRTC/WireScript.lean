import P2PNetcat.Library.Script
import P2PNetcat.NativeWebRTC.Authentication

/-!
# The identity proof in JavaScript

The payload of an authentication response and its verifier in the browser
package, and that they agree with the ones of the wire code. The keys and the
PeerIds of js-libp2p are a parameter.
-/

namespace P2PNetcat.NativeWebRTC
open List ByteCodec Fallible Script Sha256
variable {value : Bytes}

variable {L : Libp2p}

/-- What the browser package calls of js-libp2p: a PeerId is taken for its text. -/
structure ScriptLibp2p (L : Libp2p) where
  peerIdFromString : List Char → Except String (List Char)
  publicKeyFromProtobuf : Bytes → Except String L.PubKey
  peerIdFromPublicKey : L.PubKey → Except String (List Char)
  verify : L.PubKey → Bytes → Bytes → Except String Bool

/-- Both libraries read and verify the same keys, and name a key by the same text. -/
structure ScriptLibp2p.Lawful (J : ScriptLibp2p L) : Prop where
  publicKeyFromProtobuf : ∀ value key,
    J.publicKeyFromProtobuf value = .ok key ↔ L.unmarshalPublicKey value = .ok key
  peerIdFromPublicKey : ∀ key text, J.peerIdFromPublicKey key = .ok text ↔
    ∃ id, L.idFromPublicKey key = .ok id ∧ ofUtf8 (L.idString id) = text
  verify : ∀ key payload signature,
    J.verify key payload signature = .ok true ↔ L.verify key payload signature = .ok true
  idString_valid : ∀ id, Utf8.valid (L.idString id) = true
  idString_injective : ∀ {id other}, L.idString id = L.idString other → id = other
  idString_empty : L.idString [] = []

structure ScriptLibp2p.Reads (J : ScriptLibp2p L) (id : PeerID) : Prop where
  trimmed : trim (ofUtf8 (L.idString id)) = ofUtf8 (L.idString id)
  read : J.peerIdFromString (ofUtf8 (L.idString id)) = .ok (ofUtf8 (L.idString id))

structure ScriptTranscript where
  sessionId : Option (List Char)
  offerSdp : Option (List Char)
  answerSdp : Option (List Char)
  deriving DecidableEq

def validateService (value : Int) : Except String Nat :=
  if value < 1 ∨ value > 65535 then
    .error ("Logical port must be an integer between 1 and 65535; got: " ++ toString value)
  else .ok value.toNat

def setBytes (result : Bytes) (offset : Nat) (value : Bytes) : Bytes :=
  result.take offset ++ (value ++ result.drop (offset + value.length))

def writeFields (result : Bytes) (offset : Nat) : List Bytes → Bytes
  | [] => result
  | field :: fields =>
    let result := setBytes result offset (bigEndian 4 field.length)
    let offset := offset + 4
    writeFields (setBytes result offset field) (offset + field.length) fields

def encodeLengthDelimitedFields (fields : List Bytes) : Bytes :=
  let length := fields.foldl (fun total field => total + 4 + field.length) 0
  writeFields (replicate length 0) 0 fields

section Scripts
variable (J : ScriptLibp2p L)

def normalizePeerId (value : Option (List Char)) : Except String (List Char) :=
  let text := trim (value.getD [])
  if text = [] then .error "PeerId is required" else J.peerIdFromString text

def webRtcAuthPayloadV2 (peerId : Option (List Char)) (service : Int) (challenge : Bytes)
    (transcript : Option ScriptTranscript) : Except String Bytes :=
  if challenge.length ≠ 32 then
    .error ("WebRTC challenge must contain 32 bytes, received: " ++ toString challenge.length)
  else
    match transcript with
    | none => .error "WebRTC authentication transcript is required"
    | some transcript =>
      let sessionId := Utf8.encode (transcript.sessionId.getD [])
      let offer := Utf8.encode (transcript.offerSdp.getD [])
      let answer := Utf8.encode (transcript.answerSdp.getD [])
      if sessionId.length < 8 ∨ sessionId.length > 128 then
        .error "WebRTC signaling session ID must contain between 8 and 128 bytes"
      else if offer.length = 0 ∨ offer.length > 256 * 1024 then
        .error "WebRTC offer SDP is empty or exceeds the signaling limit"
      else if answer.length = 0 ∨ answer.length > 256 * 1024 then
        .error "WebRTC answer SDP is empty or exceeds the signaling limit"
      else do
        let service ← validateService service
        let peerId ← normalizePeerId J peerId
        .ok (encodeLengthDelimitedFields [Utf8.encode "p2p-netcat/native-webrtc-auth/v2".toList,
          [2], Utf8.encode "client".toList, Utf8.encode "server".toList, Utf8.encode peerId,
          bigEndian 2 service, sessionId, challenge, sha256 offer, sha256 answer])

def decodeWebRtcAuthResponseVersion (version : UInt8) (value : Bytes) :
    Except String (Bytes × Bytes) :=
  if value.length < 5 ∨ value[0]? ≠ some version then
    .error "Unsupported WebRTC authentication response"
  else
    let publicKeyLength := bigEndianValue ((value.drop 1).take 2)
    let signatureLength := bigEndianValue ((value.drop 3).take 2)
    if 5 + publicKeyLength + signatureLength ≠ value.length then
      .error "Malformed WebRTC authentication response"
    else .ok ((value.drop 5).take publicKeyLength, value.drop (5 + publicKeyLength))

def verifyWebRtcAuthResponseV2 (value : Bytes) (expectedPeerId : Option (List Char)) (service : Int)
    (challenge : Bytes) (transcript : Option ScriptTranscript) : Except String Bool := do
  let normalizedPeerId ← normalizePeerId J expectedPeerId
  let (publicBytes, signature) ← decodeWebRtcAuthResponseVersion 2 value
  let publicKey ← J.publicKeyFromProtobuf publicBytes
  let actual ← J.peerIdFromPublicKey publicKey
  if actual ≠ normalizedPeerId then .ok false
  else do
    let payload ← webRtcAuthPayloadV2 J (some normalizedPeerId) service challenge transcript
    J.verify publicKey payload signature

end Scripts

theorem setBytes_append (done rest value : Bytes) :
    setBytes (done ++ rest) done.length value = done ++ value ++ rest.drop value.length := by
  rw [setBytes, take_left, drop_length_add_append, append_assoc]

theorem writeFields_eq (done : Bytes) (fields : List Bytes) :
    writeFields (done ++ replicate (lengthDelimited fields).length 0) done.length fields =
      done ++ lengthDelimited fields := by
  induction fields generalizing done with
  | nil => rfl
  | cons field fields ih =>
    have hlength : (lengthDelimited (field :: fields)).length =
        4 + (field.length + (lengthDelimited fields).length) := by
      rw [lengthDelimited_cons, length_append, length_append, bigEndian_length]
    have hoffset : done.length + 4 = (done ++ bigEndian 4 field.length).length := by
      rw [length_append, bigEndian_length]
    have hnext : done.length + 4 + field.length =
        (done ++ bigEndian 4 field.length ++ field).length := by
      rw [length_append, hoffset]
    rw [writeFields, setBytes_append, hlength, bigEndian_length, drop_replicate,
      Nat.add_sub_cancel_left, hoffset, setBytes_append, drop_replicate,
      Nat.add_sub_cancel_left, ← hoffset, hnext, ih, lengthDelimited_cons]
    simp only [append_assoc]

theorem foldl_lengths (total : Nat) (fields : List Bytes) :
    fields.foldl (fun total field => total + 4 + field.length) total =
      total + (lengthDelimited fields).length := by
  induction fields generalizing total with
  | nil => rfl
  | cons field fields ih =>
    rw [foldl_cons, ih, lengthDelimited_cons, length_append, length_append,
      bigEndian_length]
    omega

theorem encodeLengthDelimitedFields_eq (fields : List Bytes) :
    encodeLengthDelimitedFields fields = lengthDelimited fields := by
  rw [encodeLengthDelimitedFields, foldl_lengths, Nat.zero_add]
  exact writeFields_eq [] fields

namespace AuthTranscript

def inScript (t : AuthTranscript) : ScriptTranscript where
  sessionId := some (ofUtf8 t.sessionID)
  offerSdp := some (ofUtf8 t.offerSDP)
  answerSdp := some (ofUtf8 t.answerSDP)

structure Valid (t : AuthTranscript) : Prop where
  sessionID : Utf8.valid t.sessionID = true
  offerSDP : Utf8.valid t.offerSDP = true
  answerSDP : Utf8.valid t.answerSDP = true

structure Sized (t : AuthTranscript) : Prop where
  sessionID : 8 ≤ t.sessionID.length ∧ t.sessionID.length ≤ 128
  offerSDP : t.offerSDP ≠ [] ∧ t.offerSDP.length ≤ maxSDPBytes
  answerSDP : t.answerSDP ≠ [] ∧ t.answerSDP.length ≤ maxSDPBytes

end AuthTranscript

variable {J : ScriptLibp2p L} {id : PeerID} {service : UInt16} {challenge payload : Bytes}
  {transcript : AuthTranscript}

theorem authPayloadV2_ok_iff : authPayloadV2 L id service challenge transcript = .ok payload ↔
    challenge.length = 32 ∧ id ≠ [] ∧ service ≠ 0 ∧ transcript.Sized ∧
      payload = lengthDelimited (authFieldsV2 L id service challenge transcript) := by
  constructor
  · intro h
    obtain ⟨hchallenge, h⟩ := ite_error_eq_ok.mp h
    obtain ⟨room, hroom, h⟩ := bind_eq_ok.mp h
    obtain ⟨hid, hroom⟩ := ite_error_eq_ok.mp hroom
    obtain ⟨hservice, -⟩ := ite_error_eq_ok.mp hroom
    obtain ⟨hsession, h⟩ := ite_error_eq_ok.mp h
    obtain ⟨hoffer, h⟩ := ite_error_eq_ok.mp h
    obtain ⟨hanswer, h⟩ := ite_error_eq_ok.mp h
    rw [not_or] at hoffer hanswer
    exact ⟨not_not.mp hchallenge, hid, hservice, ⟨by omega, ⟨hoffer.1, Nat.not_lt.mp hoffer.2⟩,
      hanswer.1, Nat.not_lt.mp hanswer.2⟩, (Except.ok.inj h).symm⟩
  · rintro ⟨hchallenge, hid, hservice, hsized, rfl⟩
    have hsession := hsized.sessionID
    refine ite_error_eq_ok.mpr ⟨not_not.mpr hchallenge, bind_eq_ok.mpr ?_⟩
    refine ⟨_, ite_error_eq_ok.mpr ⟨hid, ite_error_eq_ok.mpr ⟨hservice, rfl⟩⟩, ?_⟩
    refine ite_error_eq_ok.mpr ⟨by omega, ite_error_eq_ok.mpr ⟨?_, ite_error_eq_ok.mpr ⟨?_, rfl⟩⟩⟩
    · exact not_or.mpr ⟨hsized.offerSDP.1, Nat.not_lt.mpr hsized.offerSDP.2⟩
    · exact not_or.mpr ⟨hsized.answerSDP.1, Nat.not_lt.mpr hsized.answerSDP.2⟩

theorem validateService_ok_iff {n : Nat} :
    validateService service.toNat = .ok n ↔ service ≠ 0 ∧ n = service.toNat := by
  have hlt := service.toNat_lt
  have hzero : service ≠ 0 ↔ service.toNat ≠ 0 := by
    rw [ne_eq, ← UInt16.toNat_inj, UInt16.toNat_zero]
  rw [validateService, ite_error_eq_ok, hzero, Except.ok.injEq]
  omega

theorem ofUtf8_eq_nil {text : Bytes} (hvalid : Utf8.valid text = true) (h : ofUtf8 text = []) :
    text = [] := by
  rw [← encode_ofUtf8 hvalid, h]
  rfl

theorem normalizePeerId_ok_iff (hJ : J.Lawful) (hid : id = [] ∨ J.Reads id) {text : List Char} :
    normalizePeerId J (some (ofUtf8 (L.idString id))) = .ok text ↔
      id ≠ [] ∧ text = ofUtf8 (L.idString id) := by
  rw [normalizePeerId, Option.getD_some]
  rcases hid with rfl | hreads
  · rw [hJ.idString_empty]
    constructor
    · intro h
      cases h
    · exact fun h => absurd rfl h.1
  · rw [hreads.trimmed, ite_error_eq_ok, hreads.read, Except.ok.injEq]
    have hempty : ofUtf8 (L.idString id) = [] ↔ id = [] := by
      constructor
      · intro h
        apply hJ.idString_injective
        rw [hJ.idString_empty, ofUtf8_eq_nil (hJ.idString_valid id) h]
      · rintro rfl
        rw [hJ.idString_empty]
        rfl
    rw [hempty]
    exact and_congr_right fun _ => eq_comm

theorem webRtcAuthPayloadV2_ok_iff (hJ : J.Lawful) (hid : id = [] ∨ J.Reads id)
    (hvalid : transcript.Valid) :
    webRtcAuthPayloadV2 J (some (ofUtf8 (L.idString id))) service.toNat challenge
        (some transcript.inScript) = .ok payload ↔
      challenge.length = 32 ∧ id ≠ [] ∧ service ≠ 0 ∧ transcript.Sized ∧
        payload = lengthDelimited (authFieldsV2 L id service challenge transcript) := by
  have hdomain : Utf8.encode "p2p-netcat/native-webrtc-auth/v2".toList = authDomainV2 := by decide
  have hclient : Utf8.encode "client".toList = ascii "client" := by decide
  have hserver : Utf8.encode "server".toList = ascii "server" := by decide
  simp only [webRtcAuthPayloadV2, AuthTranscript.inScript, Option.getD_some,
    encode_ofUtf8 hvalid.sessionID, encode_ofUtf8 hvalid.offerSDP, encode_ofUtf8 hvalid.answerSDP,
    ite_error_eq_ok, bind_eq_ok, validateService_ok_iff, normalizePeerId_ok_iff hJ hid, not_or,
    not_not, length_eq_zero_iff, Nat.not_lt, hdomain, hclient, hserver,
    encodeLengthDelimitedFields_eq, Except.ok.injEq]
  constructor
  · rintro ⟨hchallenge, hsession, hoffer, hanswer, n, ⟨hservice, rfl⟩, text, ⟨hne, rfl⟩, rfl⟩
    rw [encode_ofUtf8 (hJ.idString_valid id)]
    exact ⟨hchallenge, hne, hservice, ⟨hsession, hoffer, hanswer⟩, rfl⟩
  · rintro ⟨hchallenge, hne, hservice, hsized, rfl⟩
    refine ⟨hchallenge, hsized.sessionID, hsized.offerSDP, hsized.answerSDP, _, ⟨hservice, rfl⟩, _,
      ⟨hne, rfl⟩, ?_⟩
    rw [encode_ofUtf8 (hJ.idString_valid id)]
    rfl

theorem decodeWebRtcAuthResponseVersion_ok_iff {version : UInt8}
    {parts : Bytes × Bytes} : decodeWebRtcAuthResponseVersion version value = .ok parts ↔
      decodeAuthResponse version value = .ok parts := by
  have hshort : ∀ short : Bytes, short.length < 5 →
      (decodeWebRtcAuthResponseVersion version short = .ok parts ↔
        (.error "unsupported WebRTC authentication response" : Except String _) = .ok parts) := by
    intro short hlength
    rw [decodeWebRtcAuthResponseVersion, if_pos (.inl hlength)]
    constructor
    · intro h
      cases h
    · intro h
      cases h
  rcases value with _ | ⟨v, _ | ⟨p0, _ | ⟨p1, _ | ⟨s0, _ | ⟨s1, body⟩⟩⟩⟩⟩
  · exact hshort [] (by decide)
  · exact hshort [v] (show 1 < 5 by decide)
  · exact hshort [v, p0] (show 2 < 5 by decide)
  · exact hshort [v, p0, p1] (show 3 < 5 by decide)
  · exact hshort [v, p0, p1, s0] (show 4 < 5 by decide)
  · have hlong : ¬ (v :: p0 :: p1 :: s0 :: s1 :: body).length < 5 := by
      simp only [length_cons]
      omega
    have hdrop : ∀ n, (v :: p0 :: p1 :: s0 :: s1 :: body).drop (5 + n) = body.drop n := by
      intro n
      rw [Nat.add_comm 5 n]
      rfl
    simp only [decodeWebRtcAuthResponseVersion, decodeAuthResponse, hlong, false_or, hdrop,
      getElem?_cons_zero, ne_eq, Option.some.injEq, ite_error_eq_ok, drop_succ_cons,
      drop_zero, take_succ_cons, take_zero]

theorem verifyAuthResponseV2_true_iff :
    verifyAuthResponseV2 L value id service challenge transcript = .ok true ↔
      ∃ parts key payload, decodeAuthResponse 2 value = .ok parts ∧
        L.unmarshalPublicKey parts.1 = .ok key ∧ L.idFromPublicKey key = .ok id ∧
        authPayloadV2 L id service challenge transcript = .ok payload ∧
        L.verify key payload parts.2 = .ok true := by
  constructor
  · intro h
    obtain ⟨parts, hparts, h⟩ := bind_eq_ok.mp h
    obtain ⟨key, hkey, h⟩ := bind_eq_ok.mp h
    obtain ⟨actual, hactual, h⟩ := bind_eq_ok.mp h
    split at h
    · cases h
    rename_i hsame
    obtain rfl := not_not.mp hsame
    obtain ⟨payload, hpayload, h⟩ := bind_eq_ok.mp h
    exact ⟨parts, key, payload, hparts, hkey, hactual, hpayload, h⟩
  · rintro ⟨parts, key, payload, hparts, hkey, hactual, hpayload, hverify⟩
    refine bind_eq_ok.mpr ⟨parts, hparts, bind_eq_ok.mpr ⟨key, hkey, ?_⟩⟩
    refine bind_eq_ok.mpr ⟨id, hactual, ?_⟩
    rw [if_neg (not_not.mpr rfl)]
    exact bind_eq_ok.mpr ⟨payload, hpayload, hverify⟩

theorem verifyWebRtcAuthResponseV2_true_iff {peerId : Option (List Char)}
    {port : Int} {script : Option ScriptTranscript} :
    verifyWebRtcAuthResponseV2 J value peerId port challenge script = .ok true ↔
      ∃ text parts key payload, normalizePeerId J peerId = .ok text ∧
        decodeWebRtcAuthResponseVersion 2 value = .ok parts ∧
        J.publicKeyFromProtobuf parts.1 = .ok key ∧ J.peerIdFromPublicKey key = .ok text ∧
        webRtcAuthPayloadV2 J (some text) port challenge script = .ok payload ∧
        J.verify key payload parts.2 = .ok true := by
  constructor
  · intro h
    obtain ⟨text, htext, h⟩ := bind_eq_ok.mp h
    obtain ⟨parts, hparts, h⟩ := bind_eq_ok.mp h
    obtain ⟨key, hkey, h⟩ := bind_eq_ok.mp h
    obtain ⟨actual, hactual, h⟩ := bind_eq_ok.mp h
    split at h
    · cases h
    rename_i hsame
    obtain rfl := not_not.mp hsame
    obtain ⟨payload, hpayload, h⟩ := bind_eq_ok.mp h
    exact ⟨actual, parts, key, payload, htext, hparts, hkey, hactual, hpayload, h⟩
  · rintro ⟨text, parts, key, payload, htext, hparts, hkey, hactual, hpayload, hverify⟩
    refine bind_eq_ok.mpr ⟨text, htext, bind_eq_ok.mpr ⟨parts, hparts, ?_⟩⟩
    refine bind_eq_ok.mpr ⟨key, hkey, bind_eq_ok.mpr ⟨text, hactual, ?_⟩⟩
    rw [if_neg (not_not.mpr rfl)]
    exact bind_eq_ok.mpr ⟨payload, hpayload, hverify⟩

theorem peerIdFromPublicKey_ok_iff (hJ : J.Lawful) {key : L.PubKey} :
    J.peerIdFromPublicKey key = .ok (ofUtf8 (L.idString id)) ↔ L.idFromPublicKey key = .ok id := by
  rw [hJ.peerIdFromPublicKey]
  constructor
  · rintro ⟨other, hother, htext⟩
    have hutf8 := congrArg Utf8.encode htext
    rw [encode_ofUtf8 (hJ.idString_valid other), encode_ofUtf8 (hJ.idString_valid id)] at hutf8
    rwa [hJ.idString_injective hutf8] at hother
  · exact fun h => ⟨id, h, rfl⟩

/-- The two payloads are the same bytes or both are refused, so the two verifiers accept the same
responses. -/
theorem auth_payloads_agree (hJ : J.Lawful) (hid : id = [] ∨ J.Reads id)
    (hvalid : transcript.Valid) :
    (authPayloadV2 L id service challenge transcript).toOption =
      (webRtcAuthPayloadV2 J (some (ofUtf8 (L.idString id))) service.toNat challenge
        (some transcript.inScript)).toOption ∧
    ∀ value, verifyAuthResponseV2 L value id service challenge transcript = .ok true ↔
      verifyWebRtcAuthResponseV2 J value (some (ofUtf8 (L.idString id))) service.toNat challenge
        (some transcript.inScript) = .ok true := by
  have hpayload : ∀ payload, authPayloadV2 L id service challenge transcript = .ok payload ↔
      webRtcAuthPayloadV2 J (some (ofUtf8 (L.idString id))) service.toNat challenge
        (some transcript.inScript) = .ok payload := by
    intro payload
    rw [authPayloadV2_ok_iff, webRtcAuthPayloadV2_ok_iff hJ hid hvalid]
  refine ⟨toOption_congr hpayload, ?_⟩
  intro value
  rw [verifyAuthResponseV2_true_iff, verifyWebRtcAuthResponseV2_true_iff]
  constructor
  · rintro ⟨parts, key, payload, hparts, hkey, hactual, hok, hverify⟩
    have hne := (authPayloadV2_ok_iff.mp hok).2.1
    exact ⟨_, parts, key, payload, (normalizePeerId_ok_iff hJ hid).mpr ⟨hne, rfl⟩,
      decodeWebRtcAuthResponseVersion_ok_iff.mpr hparts, (hJ.publicKeyFromProtobuf _ _).mpr hkey,
      (peerIdFromPublicKey_ok_iff hJ).mpr hactual, (hpayload payload).mp hok,
      (hJ.verify _ _ _).mpr hverify⟩
  · rintro ⟨text, parts, key, payload, htext, hparts, hkey, hactual, hok, hverify⟩
    obtain ⟨-, rfl⟩ := (normalizePeerId_ok_iff hJ hid).mp htext
    exact ⟨parts, key, payload, decodeWebRtcAuthResponseVersion_ok_iff.mp hparts,
      (hJ.publicKeyFromProtobuf _ _).mp hkey, (peerIdFromPublicKey_ok_iff hJ).mp hactual,
      (hpayload payload).mpr hok, (hJ.verify _ _ _).mp hverify⟩

section Example

def spellByte (b : UInt8) : Bytes :=
  [(97 + b.toNat / 16).toUInt8, (97 + b.toNat % 16).toUInt8]

def spelledLibp2p : Libp2p := { transparentLibp2p with idString := fun id => id.flatMap spellByte }

def spelledScript : ScriptLibp2p spelledLibp2p where
  peerIdFromString := .ok
  publicKeyFromProtobuf := spelledLibp2p.unmarshalPublicKey
  peerIdFromPublicKey := fun key =>
    (spelledLibp2p.idFromPublicKey key).map fun id => ofUtf8 (spelledLibp2p.idString id)
  verify := spelledLibp2p.verify

theorem spelled_ascii {id : Bytes} {b : UInt8} (h : b ∈ id.flatMap spellByte) :
    97 ≤ b.toNat ∧ b.toNat < 0x80 := by
  obtain ⟨a, -, hb⟩ := mem_flatMap.mp h
  have hlt := a.toNat_lt
  simp only [spellByte, mem_cons, not_mem_nil, or_false] at hb
  rcases hb with rfl | rfl
  · rw [toNat_toUInt8 (by omega)]
    omega
  · rw [toNat_toUInt8 (by omega)]
    omega

theorem spellByte_injective {a b : UInt8} (h : spellByte a = spellByte b) : a = b := by
  have ha := a.toNat_lt
  have hb := b.toNat_lt
  simp only [spellByte, cons.injEq, and_true] at h
  have hhigh := congrArg UInt8.toNat h.1
  have hlow := congrArg UInt8.toNat h.2
  rw [toNat_toUInt8 (by omega), toNat_toUInt8 (by omega)] at hhigh hlow
  exact UInt8.toNat_inj.mp (by omega)

theorem spelled_injective {id other : Bytes}
    (h : id.flatMap spellByte = other.flatMap spellByte) : id = other := by
  induction id generalizing other with
  | nil =>
    cases other with
    | nil => rfl
    | cons b other => cases h
  | cons a id ih =>
    cases other with
    | nil => cases h
    | cons b other =>
      rw [flatMap_cons, flatMap_cons] at h
      obtain ⟨hhead, htail⟩ := append_inj h rfl
      rw [spellByte_injective hhead, ih htail]

theorem spelledScript_lawful : spelledScript.Lawful where
  publicKeyFromProtobuf := fun _ _ => Iff.rfl
  peerIdFromPublicKey := by
    intro key text
    constructor
    · intro h
      exact ⟨_, rfl, Except.ok.inj h⟩
    · rintro ⟨id, hid, rfl⟩
      cases hid
      rfl
  verify := fun _ _ _ => Iff.rfl
  idString_valid := fun _ => Utf8.valid_of_ascii fun _ hb => (spelled_ascii hb).2
  idString_injective := spelled_injective
  idString_empty := rfl

theorem spelledScript_reads (id : PeerID) : spelledScript.Reads id where
  trimmed := by
    have hascii : ∀ b ∈ spelledLibp2p.idString id, b.toNat < 0x80 :=
      fun _ hb => (spelled_ascii hb).2
    have htext : ofUtf8 (spelledLibp2p.idString id) = (spelledLibp2p.idString id).map charOf := by
      rw [ofUtf8, Utf8.decode_of_ascii hascii]
      rfl
    have hwhite : ∀ c ∈ (spelledLibp2p.idString id).map charOf, isWhite c = false := by
      intro c hc
      obtain ⟨b, hb, rfl⟩ := mem_map.mp hc
      have hrange := spelled_ascii hb
      have hchar : (charOf b).toNat = b.toNat := Utf8.toNat_ofNat (.inl (by omega))
      simp only [isWhite, hchar, Bool.or_eq_false_iff, Bool.and_eq_false_iff,
        decide_eq_false_iff_not, beq_eq_false_iff_ne]
      omega
    rw [htext]
    exact Trim.trimBy_eq_self (fun c hc => hwhite c (mem_of_head? hc))
      fun c hc => hwhite c (mem_of_getLast? hc)
  read := rfl

theorem auth_payloads_agree_example :
    (authPayloadV2 spelledLibp2p examplePeerID 31337 exampleChallenge
        exampleTranscript).toOption.isSome = true ∧
    (authPayloadV2 spelledLibp2p examplePeerID 31337 exampleChallenge exampleTranscript).toOption =
      (webRtcAuthPayloadV2 spelledScript (some (ofUtf8 (spelledLibp2p.idString examplePeerID)))
        31337 exampleChallenge (some exampleTranscript.inScript)).toOption := by
  have hvalid : exampleTranscript.Valid := ⟨by decide +kernel, by decide +kernel, by decide +kernel⟩
  exact ⟨by decide +kernel, (auth_payloads_agree spelledScript_lawful
    (.inr (spelledScript_reads examplePeerID)) hvalid).1⟩

end Example

end P2PNetcat.NativeWebRTC
