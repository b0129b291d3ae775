import P2PNetcat.Library.ScriptMap
import P2PNetcat.NativeWebRTC.SignalingScript
import P2PNetcat.NativeWebRTC.Torrent
import P2PNetcat.Protocol.PairingAgreement

/-!
# Signaling over trackers in JavaScript

The session of the browser package, and what a message that is refused does to
the offers and origins of either session. Everything `#receive` does to its maps
is done before the first `await`, so that a call is one step. Strings are those
without lone surrogates, in UTF-8.
-/

namespace P2PNetcat.NativeWebRTC.Signaling
open ByteCodec Fallible GoTime Json Script
open P2PNetcat.Pairing (Libraries Token Aead GcmNonce ScriptLibraries ScriptToken base64UrlDecode
  openPairingPayload)

variable {N : Type} {F : Floats} {L : Libraries} {A : Aead}

/-- What is left to the engine: `JSON.parse` of decoded bytes, `String` and `Number` of any value,
which may throw, the text of a number, and the comparisons of numbers. -/
structure ScriptPlatform (N : Type) where
  parse : Bytes → Except String (Value N)
  text : Value N → Except String Bytes
  number : Option (Value N) → Except String N
  stringify : N → List Char
  ofInt : Int → N
  isSignalVersion : N → Bool
  /-- A finite number no further from a time than a number of milliseconds. -/
  within : Int → Int → N → Bool

def signalTTLSeconds : Int := 120

def member (value : Option (Value N)) (key : String) : Option (Value N) :=
  match value with
  | some (.object members) => members.lookup (ascii key)
  | _ => none

def asText : Option (Value N) → Option Bytes
  | some (.string text) => some text
  | _ => none

def asNumber : Option (Value N) → Option N
  | some (.number n) => some n
  | _ => none

def isNull : Option (Value N) → Bool
  | none => true
  | some .null => true
  | some _ => false

def isObject : Option (Value N) → Bool
  | some (.object _) => true
  | some (.array _) => true
  | _ => false

/-- What one call of `#receive` reads from `Date.now()`, the last for each entry of a loop. -/
structure ScriptReadings where
  stamped : Int
  checked : Int
  seen : Int
  pruned : Bytes → Int
  opening : Int

structure ScriptTorrentConfig where
  topic : Bytes
  peerId : Bytes
  pairingToken : Option ScriptToken

structure OfferOrigin where
  url : Bytes
  offerId : Bytes
  deriving DecidableEq

structure TorrentSignalingSession (N : Type) where
  offers : ScriptMap Bytes (Value N) := .empty
  offerOrigins : ScriptMap Bytes OfferOrigin := .empty
  seenSignals : ScriptMap Bytes Int := .empty

section Decoding
variable (P : ScriptPlatform N) (J : ScriptLibraries L) (A : Aead)

def scriptText (value : Option (Value N)) : Except String Bytes :=
  match value with
  | none => .ok []
  | some .null => .ok []
  | some (.string text) => .ok text
  | some value => P.text value

structure ScriptMetadata (N : Type) where
  room : Bytes
  type : Bytes
  sessionId : Bytes
  fromId : Bytes
  toId : Option Bytes
  createdAt : N

def signalMetadata (signal : Option (Value N)) : Except String (ScriptMetadata N) := do
  let room ← scriptText P (member signal "room")
  let type ← scriptText P (member signal "type")
  let sessionId ← scriptText P (member signal "sessionId")
  let fromId ← scriptText P (member signal "from")
  let toId ← if isNull (member signal "to") then .ok none
    else (scriptText P (member signal "to")).map some
  let createdAt ← P.number (member signal "createdAt")
  .ok ⟨room, type, sessionId, fromId, toId, createdAt⟩

/-- The metadata as an object with the payload's description and candidate. -/
def ScriptMetadata.withPayload (m : ScriptMetadata N) (payload : Option (Value N)) : Value N :=
  .object ([(ascii "version", .number (P.ofInt signalVersion)), (ascii "room", .string m.room),
      (ascii "type", .string m.type), (ascii "sessionId", .string m.sessionId),
      (ascii "from", .string m.fromId)] ++
    (m.toId.map fun toId => (ascii "to", .string toId)).toList ++
    [(ascii "createdAt", .number m.createdAt)] ++
    ((member payload "sdp").map fun sdp => (ascii "sdp", sdp)).toList ++
    ((member payload "candidate").map fun candidate => (ascii "candidate", candidate)).toList)

def ScriptMetadata.additionalData (m : ScriptMetadata N) : Bytes :=
  let texts := [m.room, m.type, m.sessionId, m.fromId, m.toId.getD []].map fun text =>
    stringifyText (ofUtf8 text)
  Utf8.encode ('[' :: (List.intercalate [','] ([integer signalVersion] ++ texts ++
    [P.stringify m.createdAt]) ++ [']']))

def normalizeIncomingSignal (message : Option (Value N)) (topic peerId : Bytes) (dateNow : Int) :
    Option (Value N) :=
  match message with
  | some (.object members) =>
    let message := some (.object members)
    let type := asText (member message "type")
    let versioned := (asNumber (member message "version")).any P.isSignalVersion
    let recent := (asNumber (member message "createdAt")).any
      (P.within dateNow (signalTTLSeconds * 1000))
    if ¬ versioned ∨ asText (member message "room") ≠ some topic then none
    else if asText (member message "from") = some peerId ∨
        (¬ isNull (member message "to") ∧ asText (member message "to") ≠ some peerId) then none
    else if type ∉ [some (ascii "offer"), some (ascii "answer"), some (ascii "candidate"),
        some (ascii "bye")] then none
    else if asText (member message "sessionId") = none ∨ asText (member message "from") = none then
      none
    else if ¬ recent then none
    else if (type = some (ascii "offer") ∨ type = some (ascii "answer")) ∧
        asText (member message "sdp") = none then none
    else if type = some (ascii "candidate") ∧ ¬ isObject (member message "candidate") then none
    else message
  -- An array has none of the fields, and no other value is an object.
  | _ => none

/-- `openPairingPayload` and `JSON.parse`, where whatever is thrown is caught. -/
def openMessage (token : ScriptToken) (metadata : ScriptMetadata N) (encrypted : Bytes) :
    Option (Value N) :=
  Except.toOption do
    let envelope ← base64UrlDecode (ofUtf8 encrypted)
    let plaintext ←
      openPairingPayload J A token "signaling".toList envelope (metadata.additionalData P)
    P.parse plaintext

def decodeIncomingSignal (message : Option (Value N)) (cfg : ScriptTorrentConfig) (dateNow : Int) :
    Except String (Option (Value N)) :=
  match cfg.pairingToken with
  | none => .ok (normalizeIncomingSignal P message cfg.topic cfg.peerId dateNow)
  | some token =>
    match asText (member message "encrypted") with
    | none => .ok none
    | some encrypted => do
      let metadata ← signalMetadata P message
      match openMessage P J A token metadata encrypted with
      | none => .ok none
      | some payload => .ok (normalizeIncomingSignal P
          (some (metadata.withPayload P (some payload))) cfg.topic cfg.peerId dateNow)

def plainTrackerSignal (topic value type sessionId fromId toId : Bytes) (stamped : Int) : Value N :=
  .object [(ascii "version", .number (P.ofInt signalVersion)), (ascii "room", .string topic),
    (ascii "type", .string type), (ascii "sessionId", .string sessionId),
    (ascii "from", .string fromId), (ascii "to", .string toId), (ascii "sdp", .string value),
    (ascii "createdAt", .number (P.ofInt stamped))]

def trackerIncomingSignal (topic value type sessionId fromId toId : Bytes) (stamped : Int) :
    Except String (Value N) :=
  if ¬ encryptedTrackerPrefix.isPrefixOf value then
    .ok (plainTrackerSignal P topic value type sessionId fromId toId stamped)
  else do
    let bytes ← base64UrlDecode (ofUtf8 (value.drop encryptedTrackerPrefix.length))
    let decoded ← P.parse bytes
    if asText (member (some decoded) "type") ≠ some type ∨
        asText (member (some decoded) "sessionId") ≠ some sessionId ∨
        asText (member (some decoded) "from") ≠ some fromId ∨
        asText (member (some decoded) "room") ≠ some topic then
      .error "Encrypted tracker signal metadata does not match its announce envelope"
    else if ¬ isNull (member (some decoded) "to") ∧
        asText (member (some decoded) "to") ≠ some toId then
      .error "Encrypted tracker signal is addressed to another peer"
    else .ok decoded

end Decoding

/-- What `publish` sends: an answer to the tracker its offer came from or to all, or the offers to
all. -/
inductive ScriptWrite (N : Type) where
  | answer (origin : Option Bytes) (signal : Value N)
  | announce (offers : List (Value N))

namespace TorrentSignalingSession

/-- `[...offers.values()].slice(-3)`: the offers that `#announce` sends. -/
def announced (s : TorrentSignalingSession N) : List (Value N) :=
  s.offers.values.drop (s.offers.values.length - 3)

def publish (s : TorrentSignalingSession N) (signal : Value N) :
    Except String (TorrentSignalingSession N × ScriptWrite N) :=
  let type := asText (member (some signal) "type")
  let sessionId := (asText (member (some signal) "sessionId")).getD []
  let key := originKey sessionId ((asText (member (some signal) "to")).getD [])
  if type = some (ascii "candidate") then
    .error "Native BitTorrent signaling requires complete non-trickle SDP"
  else if type = some (ascii "bye") then
    let left : TorrentSignalingSession N := { s with
      offers := s.offers.delete sessionId, offerOrigins := s.offerOrigins.delete key }
    .ok (left, .announce left.announced)
  else if type = some (ascii "offer") then
    let offering : TorrentSignalingSession N := { s with offers := s.offers.set sessionId signal }
    .ok (offering, .announce offering.announced)
  else .ok (s, .answer ((s.offerOrigins.get key).map OfferOrigin.url) signal)

section Receive
variable (P : ScriptPlatform N) (J : ScriptLibraries L) (A : Aead) (cfg : ScriptTorrentConfig)

def emitOnce (s : TorrentSignalingSession N) (signal : Value N) (clock : ScriptReadings) :
    TorrentSignalingSession N × Except String (Option (Value N)) :=
  let text (key : String) := (asText (member (some signal) key)).getD []
  let key := text "type" ++ ascii ":" ++ text "sessionId" ++ ascii ":" ++ text "from"
  if (s.seenSignals.get key).any fun lastSeen => clock.checked - lastSeen < 5000 then (s, .ok none)
  else
    ({ s with seenSignals := (s.seenSignals.set key clock.seen).filter fun entry =>
        clock.pruned entry.1 - entry.2 ≤ signalTTLSeconds * 1000 },
      decodeIncomingSignal P J A (some signal) cfg clock.opening)

/-- `#receive`; an error is what its promise is rejected with. -/
def receive (s : TorrentSignalingSession N) (url : Bytes) (data : Value N)
    (clock : ScriptReadings) : TorrentSignalingSession N × Except String (Option (Value N)) :=
  let field := member (some data)
  if (asText (field "failure reason")).isSome then (s, .ok none)
  else
    match asText (field "peer_id"), asText (field "offer_id") with
    | some remote, some offerId =>
      if remote = cfg.peerId then (s, .ok none)
      else
        match asText (member (field "offer") "sdp"), asText (member (field "answer") "sdp") with
        | some sdp, _ =>
          match trackerIncomingSignal P cfg.topic sdp (ascii "offer") offerId remote cfg.peerId
              clock.stamped with
          | .error err => (s, .error err)
          | .ok signal =>
            let text (key : String) := (asText (member (some signal) key)).getD []
            let origins := s.offerOrigins.set (originKey (text "sessionId") (text "from"))
              ⟨url, offerId⟩
            emitOnce P J A cfg { s with offerOrigins := origins } signal clock
        | none, some sdp =>
          if s.offers.has offerId then
            let left := { s with offers := s.offers.delete offerId }
            match trackerIncomingSignal P cfg.topic sdp (ascii "answer") offerId remote cfg.peerId
                clock.stamped with
            | .error err => (left, .error err)
            | .ok signal => emitOnce P J A cfg left signal clock
          else (s, .ok none)
        | none, none => (s, .ok none)
    | _, _ => (s, .ok none)

/-- The signal in a message that passes every check on it; one without is refused. -/
def opens (data : Value N) (clock : ScriptReadings) : Option (Value N) :=
  let field := member (some data)
  let opened (sdp type offerId remote : Bytes) : Option (Value N) := do
    let signal ← (trackerIncomingSignal P cfg.topic sdp type offerId remote cfg.peerId
      clock.stamped).toOption
    (← (decodeIncomingSignal P J A (some signal) cfg clock.opening).toOption)
  if (asText (field "failure reason")).isSome then none
  else
    match asText (field "peer_id"), asText (field "offer_id") with
    | some remote, some offerId =>
      if remote = cfg.peerId then none
      else
        match asText (member (field "offer") "sdp"), asText (member (field "answer") "sdp") with
        | some sdp, _ => opened sdp (ascii "offer") offerId remote
        | none, some sdp => opened sdp (ascii "answer") offerId remote
        | none, none => none
    | _, _ => none

end Receive

section Effects
variable {P : ScriptPlatform N} {J : ScriptLibraries L} {cfg : ScriptTorrentConfig}
  {s : TorrentSignalingSession N} {url : Bytes} {data : Value N} {clock : ScriptReadings}
variable {remote topic offerId toId sessionId type fromId : Bytes}

structure Matching (topic type sessionId fromId toId : Bytes) (decoded : Value N) : Prop where
  type : asText (member (some decoded) "type") = some type
  sessionId : asText (member (some decoded) "sessionId") = some sessionId
  fromId : asText (member (some decoded) "from") = some fromId
  room : asText (member (some decoded) "room") = some topic
  toId : isNull (member (some decoded) "to") = true ∨
    asText (member (some decoded) "to") = some toId

def Unwraps (P : ScriptPlatform N) (topic value type sessionId fromId toId : Bytes) : Prop :=
  encryptedTrackerPrefix.isPrefixOf value = false ∨ ∃ bytes decoded,
    base64UrlDecode (ofUtf8 (value.drop encryptedTrackerPrefix.length)) = .ok bytes ∧
    P.parse bytes = .ok decoded ∧ Matching topic type sessionId fromId toId decoded

theorem matching_iff {decoded : Value N} :
    (¬ (asText (member (some decoded) "type") ≠ some type ∨
        asText (member (some decoded) "sessionId") ≠ some sessionId ∨
        asText (member (some decoded) "from") ≠ some fromId ∨
        asText (member (some decoded) "room") ≠ some topic) ∧
      ¬ (¬ isNull (member (some decoded) "to") ∧
        asText (member (some decoded) "to") ≠ some toId)) ↔
      Matching topic type sessionId fromId toId decoded := by
  simp only [not_or, ne_eq, not_not, not_and]
  constructor
  · rintro ⟨⟨htype, hsession, hfrom, hroom⟩, hto⟩
    refine ⟨htype, hsession, hfrom, hroom, ?_⟩
    by_cases hnull : isNull (member (some decoded) "to") = true
    · exact .inl hnull
    · exact .inr (hto hnull)
  · intro h
    exact ⟨⟨h.type, h.sessionId, h.fromId, h.room⟩, fun hnull => h.toId.resolve_left hnull⟩

theorem trackerIncomingSignal_ok {value : Bytes} {stamped : Int} {signal : Value N}
    (h : trackerIncomingSignal P topic value type sessionId fromId toId stamped = .ok signal) :
    Unwraps P topic value type sessionId fromId toId ∧
      asText (member (some signal) "sessionId") = some sessionId ∧
      asText (member (some signal) "from") = some fromId := by
  rw [trackerIncomingSignal] at h
  split at h
  next hplain =>
    cases h
    exact ⟨.inl (Bool.eq_false_iff.mpr hplain), rfl, rfl⟩
  · obtain ⟨bytes, hbytes, h⟩ := bind_eq_ok.mp h
    obtain ⟨decoded, hdecoded, h⟩ := bind_eq_ok.mp h
    obtain ⟨hfields, h⟩ := ite_error_eq_ok.mp h
    obtain ⟨hto, h⟩ := ite_error_eq_ok.mp h
    obtain rfl := Except.ok.inj h
    have hmatch := matching_iff.mp ⟨hfields, hto⟩
    exact ⟨.inr ⟨bytes, decoded, hbytes, hdecoded, hmatch⟩, hmatch.sessionId, hmatch.fromId⟩

theorem exists_of_unwraps {value : Bytes} (stamped : Int)
    (h : Unwraps P topic value type sessionId fromId toId) : ∃ signal,
      trackerIncomingSignal P topic value type sessionId fromId toId stamped = .ok signal := by
  rw [trackerIncomingSignal]
  split
  · exact ⟨_, rfl⟩
  rename_i hwrapped
  rcases h with hplain | ⟨bytes, decoded, hbytes, hdecoded, hmatch⟩
  · rw [hplain] at hwrapped
    exact absurd Bool.false_ne_true hwrapped
  obtain ⟨hfields, hto⟩ := matching_iff.mpr hmatch
  exact ⟨decoded, bind_eq_ok.mpr ⟨bytes, hbytes, bind_eq_ok.mpr ⟨decoded, hdecoded,
    ite_error_eq_ok.mpr ⟨hfields, ite_error_eq_ok.mpr ⟨hto, rfl⟩⟩⟩⟩⟩

/-- A message of another peer that names an offer, and is no failure of the tracker. -/
structure Addressed (cfg : ScriptTorrentConfig) (data : Value N) (remote offerId : Bytes) :
    Prop where
  failure : asText (member (some data) "failure reason") = none
  sender : asText (member (some data) "peer_id") = some remote
  named : asText (member (some data) "offer_id") = some offerId
  other : remote ≠ cfg.peerId

/-- An offer that unwraps comes from the tracker that is recorded for it, and an answer is to no
offer that is announced. -/
structure Untouched (P : ScriptPlatform N) (cfg : ScriptTorrentConfig)
    (s : TorrentSignalingSession N) (url : Bytes) (data : Value N) : Prop where
  origin : ∀ remote offerId sdp, Addressed cfg data remote offerId →
    asText (member (member (some data) "offer") "sdp") = some sdp →
    Unwraps P cfg.topic sdp (ascii "offer") offerId remote cfg.peerId →
    s.offerOrigins.get (originKey offerId remote) = some ⟨url, offerId⟩
  pending : ∀ remote offerId, Addressed cfg data remote offerId →
    asText (member (member (some data) "offer") "sdp") = none →
    (asText (member (member (some data) "answer") "sdp")).isSome → s.offers.get offerId = none

theorem emitOnce_keeps (signal : Value N) :
    (emitOnce P J A cfg s signal clock).1.offers = s.offers ∧
      (emitOnce P J A cfg s signal clock).1.offerOrigins = s.offerOrigins := by
  rw [emitOnce]
  dsimp only
  split
  · exact ⟨rfl, rfl⟩
  · exact ⟨rfl, rfl⟩

theorem receive_of_not_addressed (h : ∀ remote offerId, ¬ Addressed cfg data remote offerId) :
    (receive P J A cfg s url data clock).1 = s := by
  rw [receive]
  dsimp only
  split
  · rfl
  rename_i hfailure
  split
  next remote offerId hremote hofferId =>
    split
    · rfl
    rename_i hother
    exact absurd ⟨Option.not_isSome_iff_eq_none.mp hfailure, hremote, hofferId, hother⟩
      (h remote offerId)
  · rfl

section
variable (haddressed : Addressed cfg data remote offerId)
include haddressed

theorem receive_offer {sdp : Bytes}
    (hsdp : asText (member (member (some data) "offer") "sdp") = some sdp) :
    (receive P J A cfg s url data clock).1.offers = s.offers ∧
    (Unwraps P cfg.topic sdp (ascii "offer") offerId remote cfg.peerId →
      (receive P J A cfg s url data clock).1.offerOrigins =
        s.offerOrigins.set (originKey offerId remote) ⟨url, offerId⟩) ∧
    (¬ Unwraps P cfg.topic sdp (ascii "offer") offerId remote cfg.peerId →
      (receive P J A cfg s url data clock).1.offerOrigins = s.offerOrigins) := by
  simp only [receive, haddressed.failure, haddressed.sender, haddressed.named, haddressed.other,
    hsdp, Option.isSome_none, Bool.false_eq_true, if_false]
  cases hsignal : trackerIncomingSignal P cfg.topic sdp (ascii "offer") offerId remote cfg.peerId
      clock.stamped with
  | error err =>
    refine ⟨rfl, fun hunwraps => ?_, fun _ => rfl⟩
    obtain ⟨signal, hok⟩ := exists_of_unwraps clock.stamped hunwraps
    rw [hok] at hsignal
    cases hsignal
  | ok signal =>
    obtain ⟨hunwraps, hsession, hfrom⟩ := trackerIncomingSignal_ok hsignal
    refine ⟨(emitOnce_keeps signal).1, fun _ => ?_, fun hnot => absurd hunwraps hnot⟩
    simp only [(emitOnce_keeps signal).2, hsession, hfrom, Option.getD_some]

/-- An answer takes away the offer it names, whatever is in it. -/
theorem receive_answer
    (hoffer : asText (member (member (some data) "offer") "sdp") = none)
    (hanswer : (asText (member (member (some data) "answer") "sdp")).isSome) :
    (receive P J A cfg s url data clock).1.offers = s.offers.delete offerId ∧
      (receive P J A cfg s url data clock).1.offerOrigins = s.offerOrigins := by
  obtain ⟨sdp, hsdp⟩ := Option.isSome_iff_exists.mp hanswer
  simp only [receive, haddressed.failure, haddressed.sender, haddressed.named, haddressed.other,
    hoffer, hsdp, Option.isSome_none, Bool.false_eq_true, if_false]
  split
  · cases trackerIncomingSignal P cfg.topic sdp (ascii "answer") offerId remote cfg.peerId
        clock.stamped with
    | error err => exact ⟨rfl, rfl⟩
    | ok signal => exact emitOnce_keeps signal
  next hhas =>
    have hnone : s.offers.get offerId = none := Option.not_isSome_iff_eq_none.mp hhas
    exact ⟨(ScriptMap.delete_eq_self_iff.mpr hnone).symm, rfl⟩

theorem receive_neither
    (hoffer : asText (member (member (some data) "offer") "sdp") = none)
    (hanswer : asText (member (member (some data) "answer") "sdp") = none) :
    (receive P J A cfg s url data clock).1 = s := by
  simp only [receive, haddressed.failure, haddressed.sender, haddressed.named, haddressed.other,
    hoffer, hanswer, Option.isSome_none, Bool.false_eq_true, if_false]

end

theorem receive_unchanged_iff :
    (receive P J A cfg s url data clock).1.offers = s.offers ∧
        (receive P J A cfg s url data clock).1.offerOrigins = s.offerOrigins ↔
      Untouched P cfg s url data := by
  constructor
  · rintro ⟨hoffers, horigins⟩
    constructor
    · intro remote offerId sdp haddressed hsdp hunwraps
      rw [(receive_offer haddressed hsdp).2.1 hunwraps] at horigins
      exact ScriptMap.set_eq_self_iff.mp horigins
    · intro remote offerId haddressed hoffer hanswer
      rw [(receive_answer haddressed hoffer hanswer).1] at hoffers
      exact ScriptMap.delete_eq_self_iff.mp hoffers
  · intro h
    by_cases haddressed : ∃ remote offerId, Addressed cfg data remote offerId
    · obtain ⟨remote, offerId, haddressed⟩ := haddressed
      cases hoffer : asText (member (member (some data) "offer") "sdp") with
      | some sdp =>
        refine ⟨(receive_offer haddressed hoffer).1, ?_⟩
        by_cases hunwraps : Unwraps P cfg.topic sdp (ascii "offer") offerId remote cfg.peerId
        · rw [(receive_offer haddressed hoffer).2.1 hunwraps]
          exact ScriptMap.set_eq_self_iff.mpr (h.origin _ _ _ haddressed hoffer hunwraps)
        · exact (receive_offer haddressed hoffer).2.2 hunwraps
      | none =>
        cases hanswer : asText (member (member (some data) "answer") "sdp") with
        | some sdp =>
          have hsome : (asText (member (member (some data) "answer") "sdp")).isSome := by
            rw [hanswer]
            rfl
          refine ⟨?_, (receive_answer haddressed hoffer hsome).2⟩
          rw [(receive_answer haddressed hoffer hsome).1]
          exact ScriptMap.delete_eq_self_iff.mpr (h.pending _ _ haddressed hoffer hsome)
        | none =>
          rw [receive_neither haddressed hoffer hanswer]
          exact ⟨rfl, rfl⟩
    · have hnot : ∀ remote offerId, ¬ Addressed cfg data remote offerId :=
        fun remote offerId h => haddressed ⟨remote, offerId, h⟩
      rw [receive_of_not_addressed hnot]
      exact ⟨rfl, rfl⟩

theorem decode_of_emitOnce {signal opened : Value N}
    (h : (emitOnce P J A cfg s signal clock).2 = .ok (some opened)) :
    decodeIncomingSignal P J A (some signal) cfg clock.opening = .ok (some opened) := by
  rw [emitOnce] at h
  dsimp only at h
  split at h
  · cases h
  · exact h

theorem opens_of_receive {opened : Value N}
    (h : (receive P J A cfg s url data clock).2 = .ok (some opened)) :
    opens P J A cfg data clock = some opened := by
  rw [receive] at h
  rw [opens]
  dsimp only at h ⊢
  split at h
  · cases h
  rename_i hfailure
  rw [if_neg hfailure]
  split at h
  · split at h
    · cases h
    next hother =>
      rw [if_neg hother]
      split at h
      · split at h
        · cases h
        next signal hsignal =>
          simp only [hsignal, Except.toOption, Option.bind_eq_bind, Option.bind_some,
            decode_of_emitOnce h]
      · split at h
        · split at h
          · cases h
          next signal hsignal =>
            simp only [hsignal, Except.toOption, Option.bind_eq_bind, Option.bind_some,
              decode_of_emitOnce h]
        · cases h
      · cases h
  · cases h

end Effects

end TorrentSignalingSession

/-- In either language nothing of a refused message is handed on, and it leaves the offers and the
origins as they are just when it touches neither. -/
theorem refused_message_harmless_iff {cfg : TorrentConfig L} {s : TorrentSession F} {url : Bytes}
    {value : Object F.Float} {clock : Readings} {P : ScriptPlatform N} {J : ScriptLibraries L}
    {scriptCfg : ScriptTorrentConfig} {scriptSession : TorrentSignalingSession N} {data : Value N}
    {scriptClock : ScriptReadings} :
    (TorrentSession.opens A cfg value clock = none →
      (TorrentSession.receive A cfg s url value clock).2 = none ∧
      ((TorrentSession.receive A cfg s url value clock).1.offers = s.offers ∧
          (TorrentSession.receive A cfg s url value clock).1.offerOrigins = s.offerOrigins ↔
        TorrentSession.Untouched cfg s url value)) ∧
    (TorrentSignalingSession.opens P J A scriptCfg data scriptClock = none →
      (∀ opened, (TorrentSignalingSession.receive P J A scriptCfg scriptSession url data
        scriptClock).2 ≠ .ok (some opened)) ∧
      ((TorrentSignalingSession.receive P J A scriptCfg scriptSession url data
            scriptClock).1.offers = scriptSession.offers ∧
          (TorrentSignalingSession.receive P J A scriptCfg scriptSession url data
            scriptClock).1.offerOrigins = scriptSession.offerOrigins ↔
        TorrentSignalingSession.Untouched P scriptCfg scriptSession url data)) := by
  constructor
  · intro hrefused
    refine ⟨?_, TorrentSession.receive_unchanged_iff⟩
    apply Option.eq_none_iff_forall_ne_some.mpr
    intro opened hopened
    rw [TorrentSession.opens_of_receive hopened] at hrefused
    cases hrefused
  · intro hrefused
    refine ⟨?_, TorrentSignalingSession.receive_unchanged_iff⟩
    intro opened hopened
    rw [TorrentSignalingSession.opens_of_receive hopened] at hrefused
    cases hrefused

def plainPlatform : ScriptPlatform Int where
  parse bytes :=
    match (parse bytes.length bytes).bind (fromText parseInt) with
    | some value => .ok value
    | none => .error "Unexpected token in JSON"
  text _ := .ok (ascii "[object Object]")
  number value := .ok ((asNumber value).getD 0)
  stringify := integer
  ofInt n := n
  isSignalVersion n := n = signalVersion
  within dateNow limit n := (dateNow - n).natAbs ≤ limit

def forgedMembers (N : Type) : List (Bytes × Value N) :=
  [(ascii "answer", .object [(ascii "sdp", .string (ascii "v=0"))]),
    (ascii "offer_id", .string (ascii "0123456789abcdef")),
    (ascii "peer_id", .string plainReceiver)]

theorem forgedMembers_ordered : (Value.object (forgedMembers N)).All OrderedKeys := by
  have hkeys : [ascii "answer", ascii "offer_id", ascii "peer_id"].Pairwise
      fun a b => before a b = true := by decide
  have hinner : [ascii "sdp"].Pairwise fun a b => before a b = true := by decide
  exact ⟨hkeys, ⟨hinner, trivial, trivial⟩, trivial, trivial, trivial⟩

def forgedAnswer : Object plainFloats.Float := ⟨_, forgedMembers_ordered⟩

def pairedConfig : TorrentConfig Pairing.plainLibraries where
  topic := ascii "topic"
  peerID := plainSender
  token := some (Token.forRelays [])

def pairedScript : ScriptTorrentConfig where
  topic := ascii "topic"
  peerId := plainSender
  pairingToken := some ⟨1, "12D3KooWQ3uxpHgjDKE6vGmvzKS8RPbxUDLwJ7XCLaD6YXdUfbR9".toList, 8080,
    List.replicate 32 7, [], none⟩

def pairedClock : Readings := ⟨unix 1800000001, unix 1800000001, unix 1800000001⟩

def pairedReadings : ScriptReadings :=
  ⟨1800000001000, 1800000001000, 1800000001000, fun _ => 1800000001000, 1800000001000⟩

def sealedOffer : Value Int := .object [(ascii "type", .string (ascii "offer")),
  (ascii "sessionId", .string (ascii "0123456789abcdef")), (ascii "encrypted", .string (ascii "AA"))]

/-- An answer without the token ends the announcements of an offer, in Go and in JavaScript. -/
theorem forged_answer_stops_offer :
    (∃ s : TorrentSession plainFloats,
      TorrentSession.publish plainAead pairedConfig {} (plainSignal (ascii "offer") (ascii "v=0")
        none) (unix 1800000000) (.ok plainNonce) = .ok (s, .announce) ∧
      (s.offers (ascii "0123456789abcdef")).isSome ∧
      TorrentSession.opens plainAead pairedConfig forgedAnswer pairedClock = none ∧
      (TorrentSession.receive plainAead pairedConfig s (ascii "wss://tracker") forgedAnswer
        pairedClock).1.offers (ascii "0123456789abcdef") = none) ∧
    ∃ s : TorrentSignalingSession Int,
      TorrentSignalingSession.publish {} sealedOffer = .ok (s, .announce [sealedOffer]) ∧
      s.announced = [sealedOffer] ∧
      TorrentSignalingSession.opens plainPlatform Pairing.plainScript plainAead pairedScript
        (.object (forgedMembers Int)) pairedReadings = none ∧
      (TorrentSignalingSession.receive plainPlatform Pairing.plainScript plainAead pairedScript s
        (ascii "wss://tracker") (.object (forgedMembers Int)) pairedReadings).1.announced = [] := by
  have hsend : (plainSignal (ascii "offer") (ascii "v=0") none).Sendable plainSender :=
    plainSignal_sendable (by decide) (by decide)
  have hsent := prepareOutgoing_sealed plainAead hsend rfl (ascii "topic") (Token.forRelays [])
    (unix 1800000000) plainNonce
  have hanswers : TorrentSession.Answers pairedConfig forgedAnswer := by
    refine ⟨⟨?_, ?_, ?_⟩, rfl, rfl⟩ <;> decide
  constructor
  · refine ⟨_, bind_eq_ok.mpr ⟨_, hsent, rfl⟩, rfl, rfl, ?_⟩
    rw [TorrentSession.receive_offers_of_answers hanswers]
    rfl
  · exact ⟨_, rfl, rfl, rfl, rfl⟩

end P2PNetcat.NativeWebRTC.Signaling
