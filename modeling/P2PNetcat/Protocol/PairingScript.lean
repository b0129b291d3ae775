import P2PNetcat.Library.Script
import P2PNetcat.Protocol.PairingRoundTrip
import P2PNetcat.Protocol.Sealing

/-!
# Pairing tokens in JavaScript

The decoder of the browser package, over the PeerId and multiaddr libraries
that the two languages share.
-/

namespace P2PNetcat.Pairing
open ByteCodec Fallible GoText Script

structure ScriptLibraries (L : Libraries) extends Engine where
  hasP2p : L.Multiaddr → Bool

structure ScriptToken where
  version : Int
  peerId : List Char
  service : Int
  secret : Bytes
  relayHints : List (List Char)
  expiresAt : Option Int
  deriving DecidableEq

variable {L : Libraries} (J : ScriptLibraries L)

def safeInteger (value : Option Cbor.Item) (label : String) : Except String Int :=
  match number J.toEngine value with
  | some n => .ok n
  | none => .error (label ++ " must be a safe integer")

def normalizePeerId (value : Option Cbor.Item) : Except String (List Char) :=
  match L.decodeID (Utf8.encode (trim (string J.toEngine value))) with
  | .ok id => .ok (ofUtf8 (L.idString id))
  | .error _ => .error ("Invalid pairing token PeerId: " ++ inMessage J.toEngine value)

def normalizeService (value : Option Cbor.Item) : Except String Int :=
  match number J.toEngine value with
  | some n =>
    if n < 1 ∨ n > 65535 then .error
      ("Logical port must be an integer from 1 to 65535, received: " ++ inMessage J.toEngine value)
    else .ok n
  | none => .error
      ("Logical port must be an integer from 1 to 65535, received: " ++ inMessage J.toEngine value)

def binaryData (value : Option Cbor.Item) (label : String) : Except String Bytes :=
  match value with
  | some (.bytes value) => .ok value
  | _ => .error (label ++ " must be binary data")

def normalizeRelayHint (item : Cbor.Item) : Except String (List Char) :=
  let hint := trim (string J.toEngine (some item))
  if length hint = 0 ∨ length hint > 2048 then
    .error "Pairing token relay hint must contain 1..2048 characters"
  else
    let invalid (reason : String) : Except String (List Char) := .error
      ("Invalid pairing token relay multiaddr: " ++ String.ofList hint ++ ": " ++ reason)
    match L.newMultiaddr (Utf8.encode hint) with
    | .error reason => invalid reason
    | .ok address =>
      if J.hasP2p address then .ok (ofUtf8 (L.addrString address))
      else invalid "relay PeerId is missing"

def normalizeRelayHints (value : Option Cbor.Item) : Except String (List (List Char)) :=
  if isNullish value then .ok []
  else
    match value with
    | some (.array items) =>
      if items.length > maxRelayHints then
        .error ("Pairing token supports at most " ++ toString maxRelayHints ++ " relay hints")
      else do
        let hints ← items.mapM (normalizeRelayHint J)
        .ok (sortSet hints)
    | _ => .error "Pairing token relayHints must be an array"

def normalizeExpiration (value : Option Cbor.Item) : Except String (Option Int) :=
  if isNullish value then .ok none
  else do
    let expiresAt ← safeInteger J value "Pairing token expiration"
    if expiresAt < 1 then .error "Pairing token expiration must be a positive Unix timestamp"
    else .ok (some expiresAt)

def normalizePairingToken (fields : List (Nat × Cbor.Item)) : Except String ScriptToken := do
  let version ← safeInteger J (fields.lookup 0) "Pairing token version"
  if version ≠ 1 then .error ("Unsupported pairing token version: " ++ toString version)
  else do
    let peerId ← normalizePeerId J (fields.lookup 1)
    let service ← normalizeService J (fields.lookup 2)
    let secret ← binaryData (fields.lookup 3) "Pairing token secret"
    if secret.length ≠ secretSize then
      .error ("Pairing token secret must contain exactly " ++ toString secretSize ++ " bytes")
    else do
      let relayHints ← normalizeRelayHints J (fields.lookup 4)
      let expiresAt ← normalizeExpiration J (fields.lookup 5)
      .ok ⟨version, peerId, service, secret, relayHints, expiresAt⟩

/-- `atob` does not look at the bits after the last byte. -/
def base64UrlDecode (value : List Char) : Except String Bytes :=
  match Base64Url.decode false (trim value) with
  | some payload => .ok payload
  | none => .error "Invalid base64url data"

def payloadErrors : MapErrors where
  invalid := "Invalid deterministic CBOR payload"
  notMap := "CBOR payload must be a map"
  notDeterministic := "CBOR payload is not in RFC 8949 deterministic form"

def scriptPayload (text : List Char) : Except String Bytes := do
  let text := trim text
  match tokenPrefix.isPrefixOf? text with
  | none => .error "Pairing token must start with pnc1_"
  | some data => do
    let payload ← base64UrlDecode data
    if payload.length = 0 ∨ payload.length > maxTokenSize then
      .error ("Pairing token payload must contain 1.." ++ toString maxTokenSize ++ " bytes")
    else .ok payload

def scriptToken (payload : Bytes) : Except String ScriptToken := do
  let pairs ← decodeMap J.toEngine payloadErrors payload
  let fields ← rejectUnknownKeys J.toEngine 5 "pairing token" pairs
  normalizePairingToken J fields

def decodePairingToken (text : List Char) : Except String ScriptToken := do
  let payload ← scriptPayload text
  scriptToken J payload

def derivePairingKey (token : ScriptToken) (purpose : List Char) : Except String Bytes :=
  let purpose := String.ofList (trim purpose)
  if purpose ∈ ["rendezvous", "signaling", "admission", "route-record"] then
    .ok (Hmac.hkdf token.secret (ascii "p2p-netcat/pairing/v1")
      (ascii ("p2p-netcat/" ++ purpose ++ "/v1")))
  else .error ("Unsupported pairing key purpose: " ++ purpose)

def openPairingPayload (A : Aead) (token : ScriptToken) (purpose : List Char)
    (envelope additionalData : Bytes) : Except String Bytes := do
  let pairs ← decodeMap J.toEngine payloadErrors envelope
  let fields ← rejectUnknownKeys J.toEngine 2 "AES-GCM envelope" pairs
  match fields.lookup 0 with
  | some (.uint 1) => do
    let iv ← binaryData (fields.lookup 1) "AES-GCM nonce"
    let ciphertext ← binaryData (fields.lookup 2) "AES-GCM ciphertext"
    if iv.length ≠ gcmNonceSize then .error "AES-GCM nonce must contain exactly 12 bytes"
    else if ciphertext.length < tagSize then
      .error "AES-GCM ciphertext is shorter than its authentication tag"
    else do
      let key ← derivePairingKey token purpose
      match A.openText key iv ciphertext additionalData with
      | some plaintext => .ok plaintext
      | none => .error "Pairing payload authentication failed"
  | version =>
    .error ("Unsupported AES-GCM envelope version: " ++ inMessage J.toEngine version)

end P2PNetcat.Pairing
