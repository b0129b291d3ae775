import P2PNetcat.Protocol.Pairing
import Mathlib.Data.List.Dedup

/-!
# Signed route records

The routes a node advertises: a canonical CBOR map, signed with the key of its
PeerId. Public keys and their signatures come from libp2p and are a parameter.
-/

namespace P2PNetcat.RouteRecord
open ByteCodec Fallible GoTime
open P2PNetcat.Pairing (PeerID Libraries orError shown unmarshalField)

structure Keys where
  PublicKey : Type
  unmarshalPublicKey : Bytes → Except String PublicKey
  verify : PublicKey → Bytes → Bytes → Except String Bool
  idFromPublicKey : PublicKey → Except String PeerID

def recordVersion : UInt64 := 1
def envelopeVersion : UInt64 := 1
def maxPayloadBytes : Nat := 64 * 1024
def maxAddresses : Nat := 64
def maxServices : Nat := 64
def capabilityTCP : UInt64 := 1
def capabilityQUIC : UInt64 := 2
def capabilityWS : UInt64 := 4
def capabilityWSS : UInt64 := 8
def capabilityWebTrans : UInt64 := 16
def capabilityWebRTC : UInt64 := 32
def capabilityRelay : UInt64 := 64

def allCapabilities : UInt64 :=
  capabilityTCP ||| capabilityQUIC ||| capabilityWS ||| capabilityWSS ||| capabilityWebTrans |||
    capabilityWebRTC ||| capabilityRelay

def limits : Cbor.Limits := ⟨16, 128, 32⟩

structure Record (L : Libraries) where
  version : UInt64
  peerID : PeerID
  sequence : UInt64
  issuedAt : UInt64
  expiresAt : UInt64
  services : List UInt16
  addresses : List L.Multiaddr
  relayReservations : List L.Multiaddr
  capabilities : UInt64

/-- An empty PeerId, service 0, the zero time and a skew of 0 stand for nothing given. -/
structure VerifyOptions where
  expectedPeerID : PeerID
  expectedService : UInt16
  now : Time
  clockSkew : Int

variable {L : Libraries}

def uniqueServices (values : List UInt16) : List UInt16 :=
  (values.filter (· ≠ 0)).dedup.insertionSort (· ≤ ·)

def uniqueAddresses (values : List L.Multiaddr) : List L.Multiaddr :=
  let seen := values.filter fun value => !L.isNil value
  let keys := (seen.map L.addrString).dedup.insertionSort (· ≤ ·)
  keys.filterMap fun key => seen.reverse.find? fun value => L.addrString value = key

def normalize (record : Record L) : Except String (Record L) :=
  if record.version ≠ recordVersion then
    .error ("unsupported route record version: " ++ toString record.version.toNat)
  else if record.peerID = [] then .error "route record PeerId is required"
  else if record.expiresAt ≤ record.issuedAt then
    .error "route record expiration must be later than issuedAt"
  else if record.services.length = 0 ∨ record.services.length > maxServices then
    .error ("route record must contain 1.." ++ toString maxServices ++ " services")
  else if record.addresses.length > maxAddresses ∨
      record.relayReservations.length > maxAddresses then
    .error ("route record supports at most " ++ toString maxAddresses ++
      " addresses of each type")
  else if record.capabilities &&& ~~~allCapabilities ≠ 0 then
    .error ("invalid capability mask: " ++ toString record.capabilities.toNat)
  else .ok { record with
    services := uniqueServices record.services
    addresses := uniqueAddresses record.addresses
    relayReservations := uniqueAddresses record.relayReservations }

namespace Record

def addressItem (addresses : List L.Multiaddr) : Cbor.Item :=
  .array (addresses.map fun address => .text (L.addrString address))

def fields (r : Record L) : List (Nat × Cbor.Item) :=
  [(0, .uint r.version.toNat), (1, .text (L.idString r.peerID)), (2, .uint r.sequence.toNat),
    (3, .uint r.issuedAt.toNat), (4, .uint r.expiresAt.toNat),
    (5, .array (r.services.map fun service => .uint service.toNat)),
    (6, addressItem r.addresses), (7, addressItem r.relayReservations),
    (8, .uint r.capabilities.toNat)]

def item (r : Record L) : Cbor.Item := .map (Cbor.uintPairs r.fields)

def payload (r : Record L) : Bytes := Cbor.encode r.item

end Record

def encodePayload (record : Record L) : Except String Bytes := do
  let record ← normalize record
  .ok record.payload

/-- The fields of a map whose keys are the numbers below `allowed`, all of them there. -/
def decodeMap (L : Libraries) (input : Bytes) (allowed : Nat) :
    Except String (List (Nat × Cbor.Item)) :=
  match (Cbor.unmarshal limits input).bind Cbor.asUintMap with
  | none => .error ("invalid deterministic CBOR route record: " ++ L.cborError input)
  | some fields =>
    match fields.find? fun field => field.1 ≥ allowed with
    | some field => .error ("unknown route record field: " ++ toString field.1)
    | none =>
      if fields.length ≠ allowed then .error "route record is missing required fields"
      else .ok fields

def parseServices : List Nat → Except String (List UInt16)
  | [] => .ok []
  | service :: services =>
    if service = 0 ∨ service > 65535 then .error "invalid logical port in route record"
    else do
      let rest ← parseServices services
      .ok (service.toUInt16 :: rest)

def parseAddresses (L : Libraries) (values : List Bytes) : Except String (List L.Multiaddr) :=
  values.mapM L.newMultiaddr

def decodeField {A : Type} (L : Libraries) (as : Cbor.Item → Option A)
    (fields : List (Nat × Cbor.Item)) (key : Nat) : Except String A :=
  orError (unmarshalField L as fields key) ("decode route record: " ++ ·)

def decodePayload (L : Libraries) (payload : Bytes) : Except String (Record L) := do
  let fields ← decodeMap L payload 9
  let version ← decodeField L Cbor.asUint fields 0
  let peerText ← decodeField L Cbor.asText fields 1
  let sequence ← decodeField L Cbor.asUint fields 2
  let issuedAt ← decodeField L Cbor.asUint fields 3
  let expiresAt ← decodeField L Cbor.asUint fields 4
  let services ← decodeField L (Cbor.asList Cbor.asUint) fields 5
  let addresses ← decodeField L (Cbor.asList Cbor.asText) fields 6
  let relays ← decodeField L (Cbor.asList Cbor.asText) fields 7
  let capabilities ← decodeField L Cbor.asUint fields 8
  let peerID ← L.decodeID peerText
  let services ← parseServices services
  let addresses ← parseAddresses L addresses
  let relayReservations ← parseAddresses L relays
  let record ← normalize
    { version := version.toUInt64, peerID, sequence := sequence.toUInt64,
      issuedAt := issuedAt.toUInt64, expiresAt := expiresAt.toUInt64, services, addresses,
      relayReservations, capabilities := capabilities.toUInt64 }
  match encodePayload record with
  | .ok reencoded =>
    if reencoded = payload then .ok record
    else .error "route record payload is not deterministic RFC 8949 CBOR"
  | .error _ => .error "route record payload is not deterministic RFC 8949 CBOR"

def envelopeFields (payload : Bytes) (publicBytes signature : Option Bytes) :
    List (Nat × Cbor.Item) :=
  [(0, .uint envelopeVersion.toNat), (1, .bytes payload), (2, Cbor.ofSlice publicBytes),
    (3, Cbor.ofSlice signature)]

namespace VerifyOptions

def checkExpected (options : VerifyOptions) (record : Record L) : Except String Unit :=
  if options.expectedPeerID ≠ [] ∧ record.peerID ≠ options.expectedPeerID then
    .error ("route record belongs to " ++ shown (L.idString record.peerID) ++ ", not " ++
      shown (L.idString options.expectedPeerID))
  else if options.expectedService ≠ 0 ∧ options.expectedService ∉ record.services then
    .error ("route record does not advertise logical port " ++
      toString options.expectedService.toNat)
  else .ok ()

/-- The checks against the clock, which is read only if no time is given. -/
def checkTime (options : VerifyOptions) (clock : Time) (record : Record L) : Except String Unit :=
  let now := if options.now.isZero then clock else options.now
  let skew := if options.clockSkew = 0 then 30 * second else options.clockSkew
  if (unix (wrap64 record.issuedAt.toNat)).after (now.add skew) then
    .error "route record was issued in the future"
  else if (unix (wrap64 record.expiresAt.toNat)).before (now.add (wrap64 (-skew))) then
    .error "route record has expired"
  else .ok ()

end VerifyOptions

def verify (L : Libraries) (K : Keys) (clock : Time) (envelope : Bytes) (options : VerifyOptions) :
    Except String (Record L) := do
  let fields ← decodeMap L envelope 4
  let versionError := "unsupported route record envelope version"
  let version ← orError (unmarshalField L Cbor.asUint fields 0) fun _ => versionError
  if version ≠ envelopeVersion.toNat then .error versionError
  else do
    let sizeError := "route record payload must contain 1.." ++ toString maxPayloadBytes ++ " bytes"
    let payload ← orError (unmarshalField L Cbor.asBytes fields 1) fun _ => sizeError
    if payload.length = 0 ∨ payload.length > maxPayloadBytes then .error sizeError
    else do
      let keyError := "invalid route record key or signature"
      let publicBytes ← orError (unmarshalField L Cbor.asSlice fields 2) fun _ => keyError
      let signature ← orError (unmarshalField L Cbor.asSlice fields 3) fun _ => keyError
      let publicKey ← K.unmarshalPublicKey (publicBytes.getD [])
      match K.verify publicKey payload (signature.getD []) with
      | .ok true => do
        let record ← decodePayload L payload
        let authenticated ← K.idFromPublicKey publicKey
        if record.peerID ≠ authenticated then
          .error ("route record PeerId " ++ shown (L.idString record.peerID) ++
            " does not match key " ++ shown (L.idString authenticated))
        else do
          options.checkExpected record
          options.checkTime clock record
          if Cbor.encode (.map (Cbor.uintPairs (envelopeFields payload publicBytes signature))) ≠
              envelope then
            .error "route record envelope is not deterministic RFC 8949 CBOR"
          else .ok record
      | _ => .error "route record signature is invalid"

end P2PNetcat.RouteRecord
