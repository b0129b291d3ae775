import P2PNetcat.Protocol.PairingScript
import P2PNetcat.Protocol.RouteRecord

/-!
# Route records in JavaScript

The verifier of the browser package, over the libraries that the two languages
share.
-/

namespace P2PNetcat.RouteRecord
open ByteCodec Fallible Script
open P2PNetcat.Pairing (Libraries ScriptLibraries safeInteger normalizeService binaryData)

structure ScriptRecord where
  version : Int
  peerId : List Char
  sequence : Int
  issuedAt : Int
  expiresAt : Int
  services : List Int
  addresses : List (List Char)
  relayReservations : List (List Char)
  capabilities : Int
  deriving DecidableEq

structure ScriptOptions where
  expectedPeerId : Option (List Char)
  expectedService : Option Nat
  nowSeconds : Int
  clockSkewSeconds : Int

variable {L : Libraries} (J : ScriptLibraries L)

def safeNumber (value : Int) (label : String) : Except String Int :=
  if value.natAbs ≤ maxSafeInteger then .ok value
  else .error (label ++ " must be a safe integer")

def safeIntegerOr (other : Int) (value : Option Cbor.Item) (label : String) : Except String Int :=
  if isNullish value then safeNumber other label else safeInteger J value label

def normalizeServices (value : Option Cbor.Item) : Except String (List Int) :=
  let invalid := "Route record services must contain 1.." ++ toString maxServices ++ " logical ports"
  match value with
  | some (.array items) =>
    if items.length = 0 ∨ items.length > maxServices then .error invalid
    else do
      let services ← items.mapM fun item => normalizeService J (some item)
      .ok (services.dedup.insertionSort (· ≤ ·))
  | _ => .error invalid

def normalizeAddress (item : Cbor.Item) : Except String (List Char) :=
  match L.newMultiaddr (Utf8.encode (trim (string J.toEngine (some item)))) with
  | .ok address => .ok (ofUtf8 (L.addrString address))
  | .error _ => .error ("Invalid route record multiaddr: " ++ inMessage J.toEngine (some item))

def normalizeAddresses (value : Option Cbor.Item) (label : String) :
    Except String (List (List Char)) :=
  if isNullish value then .ok []
  else
    let invalid := "Route record " ++ label ++ " must contain at most " ++ toString maxAddresses ++
      " multiaddrs"
    match value with
    | some (.array items) =>
      if items.length > maxAddresses then .error invalid
      else do
        let addresses ← items.mapM (normalizeAddress J)
        .ok (sortSet addresses)
    | _ => .error invalid

/-- The operands of `&` are brought to 32 bits. -/
def normalizeCapabilities (value : Option Cbor.Item) : Except String Int :=
  let invalid := "Invalid route capability mask: " ++ inMessage J.toEngine value
  match if isNullish value then some 0 else number J.toEngine value with
  | some mask =>
    if mask < 0 ∨ mask.toNat % 2 ^ 32 &&& (2 ^ 32 - 1 - allCapabilities.toNat) ≠ 0 then
      .error invalid
    else .ok mask
  | none => .error invalid

/-- The fields of a record; a missing sequence is the clock's milliseconds. -/
def normalizeRouteRecord (dateNow : Int) (fields : List (Nat × Cbor.Item)) :
    Except String ScriptRecord := do
  let version ← safeIntegerOr J 1 (fields.lookup 0) "Route record version"
  if version ≠ 1 then .error ("Unsupported route record version: " ++ toString version)
  else do
    let peerId := trim (string J.toEngine (fields.lookup 1))
    if length peerId = 0 ∨ length peerId > 256 then
      .error "Route record PeerId must contain 1..256 characters"
    else do
      let sequence ← safeIntegerOr J dateNow (fields.lookup 2) "Route record sequence"
      if sequence < 0 then .error "Route record sequence must not be negative"
      else do
        let issuedAt ← safeInteger J (fields.lookup 3) "Route record issuedAt"
        let expiresAt ← safeInteger J (fields.lookup 4) "Route record expiresAt"
        if issuedAt < 0 ∨ expiresAt < 0 ∨ expiresAt ≤ issuedAt then
          .error "Route record expiration must be later than its issue time"
        else do
          let services ← normalizeServices J (fields.lookup 5)
          let addresses ← normalizeAddresses J (fields.lookup 6) "addresses"
          let relayReservations ← normalizeAddresses J (fields.lookup 7) "relayReservations"
          let capabilities ← normalizeCapabilities J (fields.lookup 8)
          .ok ⟨version, peerId, sequence, issuedAt, expiresAt, services, addresses,
            relayReservations, capabilities⟩

def recordErrors : MapErrors where
  invalid := "Invalid deterministic CBOR route record"
  notMap := "Route record CBOR payload must be a map"
  notDeterministic := "Route record CBOR payload is not in RFC 8949 deterministic form"

def decodeRouteRecordPayload (dateNow : Int) (payload : Bytes) : Except String ScriptRecord := do
  let pairs ← Script.decodeMap J.toEngine recordErrors payload
  let fields ← rejectUnknownKeys J.toEngine 8 "route record" pairs
  normalizeRouteRecord J dateNow fields

namespace ScriptOptions

def checkPeerId (options : ScriptOptions) (record : ScriptRecord) : Except String Unit :=
  match options.expectedPeerId with
  | some expected =>
    if record.peerId ≠ expected then
      .error ("Route record belongs to PeerId " ++ String.ofList record.peerId ++ ", not " ++
        String.ofList expected)
    else .ok ()
  | none => .ok ()

def checkService (options : ScriptOptions) (record : ScriptRecord) : Except String Unit :=
  match options.expectedService with
  | some expected => do
    let service ← normalizeService J (some (.uint expected))
    if service ∉ record.services then
      .error ("Route record does not advertise logical port " ++ toString expected)
    else .ok ()
  | none => .ok ()

def checkExpected (options : ScriptOptions) (record : ScriptRecord) : Except String Unit := do
  options.checkPeerId record
  options.checkService J record

def checkTime (options : ScriptOptions) (record : ScriptRecord) : Except String Unit := do
  let now ← safeNumber options.nowSeconds "Current Unix time"
  let skew ← safeNumber options.clockSkewSeconds "Route record clock skew"
  if skew < 0 then .error "Route record clock skew must not be negative"
  else if record.issuedAt > now + skew then .error "Route record was issued in the future"
  else if record.expiresAt < now - skew then .error "Route record has expired"
  else .ok ()

end ScriptOptions

def verifyRouteRecord (K : Keys) (dateNow : Int) (value : Bytes) (options : ScriptOptions) :
    Except String ScriptRecord := do
  let pairs ← Script.decodeMap J.toEngine recordErrors value
  let envelope ← rejectUnknownKeys J.toEngine 3 "route record envelope" pairs
  match envelope.lookup 0 with
  | some (.uint 1) => do
    let payload ← binaryData (envelope.lookup 1) "Route record payload"
    let publicKeyBytes ← binaryData (envelope.lookup 2) "Route record public key"
    let signature ← binaryData (envelope.lookup 3) "Route record signature"
    if payload.length = 0 ∨ payload.length > maxPayloadBytes then
      .error ("Route record payload must contain 1.." ++ toString maxPayloadBytes ++ " bytes")
    else do
      let publicKey ← K.unmarshalPublicKey publicKeyBytes
      let valid ← K.verify publicKey payload signature
      if valid = false then .error "Route record signature is invalid"
      else do
        let record ← decodeRouteRecordPayload J dateNow payload
        let id ← K.idFromPublicKey publicKey
        let authenticatedPeerId := ofUtf8 (L.idString id)
        if record.peerId ≠ authenticatedPeerId then
          .error ("Route record PeerId " ++ String.ofList record.peerId ++
            " does not match signing key " ++ String.ofList authenticatedPeerId)
        else do
          options.checkExpected J record
          options.checkTime record
          .ok record
  | version => .error ("Unsupported route record envelope version: " ++
      inMessage J.toEngine version)

end P2PNetcat.RouteRecord
