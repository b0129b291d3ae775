import P2PNetcat.Library.Sha256

/-!
# Native WebRTC wire format and identity proof

Frames of the data channel and the two versions of the authentication
response. Keys, signatures and the text of a PeerId come from libp2p and are a
parameter; strings are byte strings, as they are in the source.
-/

namespace P2PNetcat.NativeWebRTC
open ByteCodec Sha256

def protocolVersion : UInt8 := 2

def frameData : UInt8 := 0
def frameControl : UInt8 := 1
def frameAuthChallenge : UInt8 := 2
def frameAuthResponse : UInt8 := 3
def frameAuthReady : UInt8 := 4

def authResponseVersionV1 : UInt8 := 1
def authResponseVersionV2 : UInt8 := 2
def authDomainV2 : Bytes := ascii "p2p-netcat/native-webrtc-auth/v2"

def maxSDPBytes : Nat := 256 * 1024

structure Frame where
  type : UInt8
  payload : Bytes
  deriving DecidableEq

/-- One exact signaling exchange and its negotiated transport. -/
structure AuthTranscript where
  sessionID : Bytes
  offerSDP : Bytes
  answerSDP : Bytes
  deriving DecidableEq

def encodeFrame (frameType : UInt8) (payload : Bytes) : Bytes :=
  protocolVersion :: frameType :: payload

def decodeFrame : Bytes → Except String Frame
  | version :: frameType :: payload =>
    if version ≠ protocolVersion then
      .error ("unsupported native WebRTC version: " ++ toString version.toNat)
    else .ok ⟨frameType, payload⟩
  | _ => .error "native WebRTC frame is shorter than its header"

theorem decodeFrame_encodeFrame (frame : Frame) :
    decodeFrame (encodeFrame frame.type frame.payload) = .ok frame := by
  simp [decodeFrame, encodeFrame]

abbrev PeerID := Bytes

structure Libp2p where
  PrivKey : Type
  PubKey : Type
  getPublic : PrivKey → PubKey
  idFromPrivateKey : PrivKey → Except String PeerID
  idFromPublicKey : PubKey → Except String PeerID
  idString : PeerID → Bytes
  marshalPublicKey : PubKey → Except String Bytes
  unmarshalPublicKey : Bytes → Except String PubKey
  sign : PrivKey → Bytes → Except String Bytes
  verify : PubKey → Bytes → Bytes → Except String Bool

/-- The documented behaviour the proofs rest on: a PeerId belongs to the public
half of a key, marshalled keys are read back, and a signature verifies for
exactly the key and message it was made with. -/
structure Libp2p.Lawful (L : Libp2p) : Prop where
  id_private : ∀ k, L.idFromPrivateKey k = L.idFromPublicKey (L.getPublic k)
  unmarshal_marshal : ∀ {key value}, L.marshalPublicKey key = .ok value →
    L.unmarshalPublicKey value = .ok key
  verify_signed : ∀ {k message signature}, L.sign k message = .ok signature →
    ∀ key other, L.verify key other signature = .ok true ↔ key = L.getPublic k ∧ other = message

section Payloads
variable (L : Libp2p)

def roomID (peerID : PeerID) (service : UInt16) : Except String Bytes :=
  if peerID = [] then .error "PeerId is required"
  else if service = 0 then .error "logical port must be between 1 and 65535"
  else .ok (L.idString peerID ++ ascii ":" ++ decimal service.toNat)

def challengeError (challenge : Bytes) : String :=
  "WebRTC challenge must contain 32 bytes; got " ++ toString challenge.length

def authPayload (peerID : PeerID) (service : UInt16) (challenge : Bytes) : Except String Bytes :=
  if challenge.length ≠ 32 then .error (challengeError challenge)
  else do
    let room ← roomID L peerID service
    .ok <| ascii "p2p-netcat/trystero-auth/v1\x00" ++ room ++ [0] ++ challenge

def authFieldsV2 (peerID : PeerID) (service : UInt16) (challenge : Bytes)
    (transcript : AuthTranscript) : List Bytes :=
  [authDomainV2, [authResponseVersionV2], ascii "client", ascii "server", L.idString peerID,
    bigEndian 2 service.toNat, transcript.sessionID, challenge,
    sha256 transcript.offerSDP, sha256 transcript.answerSDP]

def authPayloadV2 (peerID : PeerID) (service : UInt16) (challenge : Bytes)
    (transcript : AuthTranscript) : Except String Bytes :=
  if challenge.length ≠ 32 then .error (challengeError challenge)
  else do
    let _ ← roomID L peerID service
    if transcript.sessionID.length < 8 ∨ transcript.sessionID.length > 128 then
      .error "WebRTC signaling session ID must contain between 8 and 128 bytes"
    else if transcript.offerSDP = [] ∨ transcript.offerSDP.length > maxSDPBytes then
      .error "WebRTC offer SDP is empty or exceeds the signaling limit"
    else if transcript.answerSDP = [] ∨ transcript.answerSDP.length > maxSDPBytes then
      .error "WebRTC answer SDP is empty or exceeds the signaling limit"
    else .ok (lengthDelimited (authFieldsV2 L peerID service challenge transcript))

end Payloads

def encodeAuthResponse (version : UInt8) (publicKey signature : Bytes) : Except String Bytes :=
  if publicKey.length > 0xffff ∨ signature.length > 0xffff then
    .error "WebRTC authentication response is too large"
  else .ok (version :: bigEndian 2 publicKey.length ++ bigEndian 2 signature.length ++
    publicKey ++ signature)

def decodeAuthResponse (version : UInt8) (value : Bytes) : Except String (Bytes × Bytes) :=
  match value with
  | v :: p0 :: p1 :: s0 :: s1 :: body =>
    if v ≠ version then .error "unsupported WebRTC authentication response"
    else
      let publicLength := bigEndianValue [p0, p1]
      let signatureLength := bigEndianValue [s0, s1]
      if 5 + publicLength + signatureLength ≠ value.length then
        .error "malformed WebRTC authentication response"
      else .ok (body.take publicLength, body.drop publicLength)
  | _ => .error "unsupported WebRTC authentication response"

section Responses
variable (L : Libp2p)

/-- Both signers: a payload of the key's own PeerId, signed and framed with the version. -/
def signResponse (version : UInt8) (privateKey : Option L.PrivKey)
    (payloadFor : PeerID → Except String Bytes) : Except String Bytes :=
  match privateKey with
  | none => .error "libp2p private key is required"
  | some key => do
    let peerID ← L.idFromPrivateKey key
    let payload ← payloadFor peerID
    let signature ← L.sign key payload
    let publicKey ← L.marshalPublicKey (L.getPublic key)
    encodeAuthResponse version publicKey signature

def signAuthResponse (privateKey : Option L.PrivKey) (service : UInt16) (challenge : Bytes) :
    Except String Bytes :=
  signResponse L authResponseVersionV1 privateKey fun id => authPayload L id service challenge

def signAuthResponseV2 (privateKey : Option L.PrivKey) (service : UInt16) (challenge : Bytes)
    (transcript : AuthTranscript) : Except String Bytes :=
  signResponse L authResponseVersionV2 privateKey fun id =>
    authPayloadV2 L id service challenge transcript

/-- Both verifiers: the response's key must have the expected PeerId and its
signature must cover the payload computed here. -/
def verifyResponse (version : UInt8) (value : Bytes) (expected : PeerID)
    (payloadFor : PeerID → Except String Bytes) : Except String Bool := do
  let (publicBytes, signature) ← decodeAuthResponse version value
  let publicKey ← L.unmarshalPublicKey publicBytes
  let actual ← L.idFromPublicKey publicKey
  if actual ≠ expected then .ok false
  else do
    let payload ← payloadFor expected
    L.verify publicKey payload signature

def verifyAuthResponse (value : Bytes) (expected : PeerID) (service : UInt16)
    (challenge : Bytes) : Except String Bool :=
  verifyResponse L authResponseVersionV1 value expected fun id =>
    authPayload L id service challenge

def verifyAuthResponseV2 (value : Bytes) (expected : PeerID) (service : UInt16)
    (challenge : Bytes) (transcript : AuthTranscript) : Except String Bool :=
  verifyResponse L authResponseVersionV2 value expected fun id =>
    authPayloadV2 L id service challenge transcript

end Responses

end P2PNetcat.NativeWebRTC
