import P2PNetcat.Library.Base64Url
import P2PNetcat.Library.Cbor
import P2PNetcat.Library.Fallible
import P2PNetcat.Library.GoTime
import P2PNetcat.Library.Sha256
import P2PNetcat.Library.Text

/-!
# Pairing tokens

The bearer credential a listener shares with its clients, its checks and its
text form: a prefix and the base64url of a canonical CBOR map. PeerIds and
multiaddrs come from libp2p and are a parameter; Go strings are byte strings,
and the text of a token is a list of characters.
-/

namespace P2PNetcat.Pairing
open ByteCodec Fallible GoTime GoText Hmac

abbrev PeerID := Bytes

/-- What the protocol packages call of go-libp2p and go-multiaddr, and how the base64 and CBOR
decoders word their errors. -/
structure Libraries where
  Multiaddr : Type
  isNil : Multiaddr → Bool
  addrString : Multiaddr → Bytes
  newMultiaddr : Bytes → Except String Multiaddr
  addrInfoFromP2pAddr : Multiaddr → Except String PeerID
  idString : PeerID → Bytes
  decodeID : Bytes → Except String PeerID
  base64Error : List Char → String
  cborError : Bytes → String

/-- Parsing inverts printing, and the text of a PeerId is UTF-8. -/
structure Libraries.Lawful (L : Libraries) : Prop where
  decodeID_idString : ∀ {id other}, L.decodeID (L.idString id) = .ok other → other = id
  idString_valid : ∀ {id other}, L.decodeID (L.idString id) = .ok other →
    Utf8.valid (L.idString id) = true
  newMultiaddr_addrString : ∀ {a}, L.isNil a = false → L.newMultiaddr (L.addrString a) = .ok a

def tokenPrefix : List Char := "pnc1_".toList
def tokenVersion : UInt64 := 1
def secretSize : Nat := 32
def maxTokenSize : Nat := 16 * 1024
def maxRelayHints : Nat := 16

def limits : Cbor.Limits := ⟨16, 64, 32⟩

def shown (text : Bytes) : String :=
  String.ofList ((Utf8.decode text).getD (text.map charOf))

structure Token (L : Libraries) where
  version : UInt64
  peerID : PeerID
  service : UInt16
  secret : Bytes
  relayHints : List L.Multiaddr
  expiresAt : Option UInt64
  secret_length : secret.length = secretSize

def zeroTime : Time := ⟨0, 0, by decide, nsec_zero⟩

variable {L : Libraries}

def checkHints (L : Libraries) : List Bytes → List L.Multiaddr → Except String Unit
  | _, [] => .ok ()
  | seen, hint :: hints =>
    if L.isNil hint ∨ (L.addrString hint).length > 2048 then
      .error "invalid relay hint in pairing token"
    else
      let text := L.addrString hint
      match L.addrInfoFromP2pAddr hint with
      | .error _ => .error ("relay hint must contain /p2p/PeerId: " ++ shown text)
      | .ok id =>
        if id = [] then .error ("relay hint must contain /p2p/PeerId: " ++ shown text)
        else if text ∈ seen then .error ("relay hints must be unique: " ++ shown text)
        else checkHints L (text :: seen) hints

def checkExpiry (expiresAt : Option UInt64) (now : Time) : Except String Unit :=
  match expiresAt with
  | none => .ok ()
  | some expires =>
    if expires = 0 then .error "pairing token expiration must be a positive Unix timestamp"
    else if ¬ now.isZero ∧ now.toUnix % 2 ^ 64 > expires.toNat then
      .error ("pairing token expired at Unix time " ++ toString expires.toNat)
    else .ok ()

namespace Token

def validate (t : Token L) (now : Time) : Except String Unit :=
  if t.version ≠ tokenVersion then
    .error ("unsupported pairing token version: " ++ toString t.version.toNat)
  else
    match L.decodeID (L.idString t.peerID) with
    | .error err => .error ("invalid PeerId in pairing token: " ++ err)
    | .ok _ =>
      if t.service = 0 then .error "pairing token logical port must be between 1 and 65535"
      else if t.relayHints.length > maxRelayHints then
        .error ("pairing token supports at most " ++ toString maxRelayHints ++ " relay hints")
      else do
        checkHints L [] t.relayHints
        checkExpiry t.expiresAt now

def new (peerID : PeerID) (service : UInt16) (relayHints : List L.Multiaddr)
    (expiresAt : Option UInt64) (random : Except String { b : Bytes // b.length = secretSize })
    (now : Time) : Except String (Token L) :=
  if service = 0 then .error "logical port must be between 1 and 65535"
  else
    match random with
    | .error err => .error ("create pairing secret: " ++ err)
    | .ok secret => do
      let token : Token L :=
        ⟨tokenVersion, peerID, service, secret.val, relayHints, expiresAt, secret.property⟩
      token.validate now
      .ok token

def hintTexts (t : Token L) : List Bytes :=
  (t.relayHints.map L.addrString).insertionSort (· ≤ ·)

def fields (t : Token L) : List (Nat × Cbor.Item) :=
  [(0, .uint t.version.toNat), (1, .text (L.idString t.peerID)), (2, .uint t.service.toNat),
    (3, .bytes t.secret), (4, .array (t.hintTexts.map .text))] ++
  t.expiresAt.toList.map fun expires => (5, .uint expires.toNat)

def item (t : Token L) : Cbor.Item := .map (Cbor.uintPairs t.fields)

def payload (t : Token L) : Bytes := Cbor.encode t.item

def encode (t : Token L) : Except String (List Char) := do
  t.validate zeroTime
  .ok (tokenPrefix ++ Base64Url.encode t.payload)

end Token

/-- The decoder of the standard library passes over line ends. -/
def isNewline (c : Char) : Bool := c = '\n' ∨ c = '\r'

def decodePayload (L : Libraries) (text : List Char) : Except String Bytes :=
  let text := trimSpace text
  match tokenPrefix.isPrefixOf? text with
  | none => .error "pairing token must start with pnc1_"
  | some data =>
    match Base64Url.decode true (data.filter fun c => !isNewline c) with
    | none => .error ("invalid pairing token base64url data: " ++ L.base64Error data)
    | some payload =>
      if payload.length = 0 ∨ payload.length > maxTokenSize then
        .error ("pairing token must contain 1.." ++ toString maxTokenSize ++ " bytes")
      else .ok payload

def decodeFields (L : Libraries) (payload : Bytes) : Except String (List (Nat × Cbor.Item)) :=
  match (Cbor.unmarshal limits payload).bind Cbor.asUintMap with
  | none => .error ("invalid deterministic CBOR pairing token: " ++ L.cborError payload)
  | some raw =>
    match raw.find? fun field => field.1 > 5 with
    | some field => .error ("unknown pairing token field: " ++ toString field.1)
    | none =>
      match [0, 1, 2, 3, 4].find? fun key => (raw.lookup key).isNone with
      | some key => .error ("missing pairing token field: " ++ toString key)
      | none => .ok raw

def unmarshalField {α : Type} (L : Libraries) (as : Cbor.Item → Option α)
    (raw : List (Nat × Cbor.Item)) (key : Nat) : Except String α :=
  let item := (raw.lookup key).getD .null
  match as item with
  | some value => .ok value
  | none => .error (L.cborError (Cbor.encode item))

def orError {α : Type} (result : Except String α) (describe : String → String) : Except String α :=
  match result with
  | .ok value => .ok value
  | .error err => .error (describe err)

theorem orError_ok_iff {A : Type} {result : Except String A} {describe : String → String}
    {value : A} : orError result describe = .ok value ↔ result = .ok value := by
  cases result with
  | error err | ok other => simp [orError]

theorem unmarshalField_ok_iff {A : Type} {as : Cbor.Item → Option A}
    {fields : List (Nat × Cbor.Item)} {key : Nat} {value : A} :
    unmarshalField L as fields key = .ok value ↔
      as ((fields.lookup key).getD .null) = some value := by
  rw [unmarshalField]
  cases as ((fields.lookup key).getD .null) with
  | none | some other => simp

def parseHints (L : Libraries) : List Bytes → Except String (List L.Multiaddr)
  | [] => .ok []
  | value :: values => do
    let hint ← orError (L.newMultiaddr value) fun err =>
      "invalid relay hint " ++ quote (shown value) ++ ": " ++ err
    let hints ← parseHints L values
    .ok (hint :: hints)

def decodeExpiry (L : Libraries) (raw : List (Nat × Cbor.Item)) : Except String (Option UInt64) :=
  match raw.lookup 5 with
  | none => .ok none
  | some _ => do
    let expires ← orError (unmarshalField L Cbor.asUint raw 5) ("expiration pairing token: " ++ ·)
    .ok (some expires.toUInt64)

def decodeToken (L : Libraries) (raw : List (Nat × Cbor.Item)) : Except String (Token L) := do
  let version ← orError (unmarshalField L Cbor.asUint raw 0) ("pairing token version: " ++ ·)
  let peerText ← orError (unmarshalField L Cbor.asText raw 1) ("PeerId pairing token: " ++ ·)
  let portError := "pairing token logical port must be between 1 and 65535"
  let service ← orError (unmarshalField L Cbor.asUint raw 2) fun _ => portError
  if service = 0 ∨ service > 65535 then .error portError
  else do
    let secretError := "pairing secret must contain exactly " ++ toString secretSize ++ " bytes"
    let secret ← orError (unmarshalField L Cbor.asBytes raw 3) fun _ => secretError
    if h : secret.length = secretSize then do
      let hints ← orError (unmarshalField L (Cbor.asList Cbor.asText) raw 4)
        ("relay hints pairing token: " ++ ·)
      if hints.length > maxRelayHints then
        .error ("pairing token supports at most " ++ toString maxRelayHints ++ " relay hints")
      else do
        let peerID ← orError (L.decodeID peerText) ("invalid PeerId in pairing token: " ++ ·)
        let relayHints ← parseHints L hints
        let expiresAt ← decodeExpiry L raw
        .ok ⟨version.toUInt64, peerID, service.toUInt16, secret, relayHints, expiresAt, h⟩
    else .error secretError

def decode (L : Libraries) (text : List Char) : Except String (Token L) := do
  let payload ← decodePayload L text
  let raw ← decodeFields L payload
  let token ← decodeToken L raw
  token.validate zeroTime
  let reencoded ← token.encode
  if reencoded ≠ tokenPrefix ++ Base64Url.encode payload then
    .error "CBOR pairing token is not deterministic RFC 8949 CBOR"
  else .ok token

namespace Token

def deriveKey (t : Token L) (purpose : String) : Except String Bytes :=
  if purpose ∈ ["rendezvous", "signaling", "admission", "route-record"] then
    .ok (hkdf t.secret (ascii "p2p-netcat/pairing/v1") (ascii ("p2p-netcat/" ++ purpose ++ "/v1")))
  else .error ("unsupported pairing key purpose: " ++ purpose)

end Token

end P2PNetcat.Pairing
