import P2PNetcat.NativeWebRTC.SignalingDelivery

/-!
# Signaling over trackers

What a session over WebTorrent trackers keeps: the offers it announces again and
again, the tracker each foreign offer came from, and the signals seen of late.
`receive` reads what an untrusted peer has sent through a tracker. It holds the
lock once for the offers or the origins and once for the signals seen, so that a
call is one step to each map.
-/

namespace P2PNetcat.NativeWebRTC.Signaling
open Function ByteCodec Fallible GoTime Json
open P2PNetcat.Pairing (Libraries Token Aead GcmNonce)

def encryptedTrackerPrefix : Bytes := ascii "pnc-signal-v1:"

variable {F : Floats} {L : Libraries} {A : Aead} {N : Type}

def textAt (members : List (Bytes × Value N)) (key : String) : Bytes :=
  match members.lookup (ascii key) with
  | some (.string text) => text
  | _ => []

def objectAt (members : List (Bytes × Value N)) (key : String) : Option (List (Bytes × Value N)) :=
  match members.lookup (ascii key) with
  | some (.object object) => some object
  | _ => none

namespace Signal

def zero : Signal F := ⟨0, [], [], [], [], [], 0, [], none, []⟩

def putText (signal : Signal F) (set : Bytes → Signal F) : Value (List Char) → Option (Signal F)
  | .string text => some (set text)
  | .null => some signal
  | _ => none

def putInt (signal : Signal F) (set : Int → Signal F) : Value (List Char) → Option (Signal F)
  | .number literal => (parseInt literal).map set
  | .null => some signal
  | _ => none

def putCandidate (signal : Signal F) : Value (List Char) → Option (Signal F)
  | .object members =>
    ((signal.candidate.getD .empty).merge F.parse members).map fun candidate =>
      { signal with candidate := some candidate }
  | .null => some { signal with candidate := none }
  | _ => none

def put (signal : Signal F) (key : Bytes) (value : Value (List Char)) : Option (Signal F) :=
  if isField "version" key then signal.putInt (fun n => { signal with version := n }) value
  else if isField "room" key then signal.putText (fun text => { signal with room := text }) value
  else if isField "type" key then signal.putText (fun text => { signal with type := text }) value
  else if isField "sessionid" key then
    signal.putText (fun text => { signal with sessionID := text }) value
  else if isField "from" key then signal.putText (fun text => { signal with fromID := text }) value
  else if isField "to" key then signal.putText (fun text => { signal with toID := text }) value
  else if isField "createdat" key then
    signal.putInt (fun n => { signal with createdAt := n }) value
  else if isField "sdp" key then signal.putText (fun text => { signal with sdp := text }) value
  else if isField "candidate" key then signal.putCandidate value
  else if isField "encrypted" key then
    signal.putText (fun text => { signal with encrypted := text }) value
  else some signal

def textMember (key : String) (text : Bytes) : List (Bytes × Value (List Char)) :=
  if text = [] then [] else [(ascii key, .string text)]

def marshalText (signal : Signal F) : Except String Bytes := do
  let candidate ← candidateMember signal.candidate
  .ok (Utf8.encode (render (.object ([(ascii "version", .number (integer signal.version)),
      (ascii "room", .string signal.room), (ascii "type", .string signal.type),
      (ascii "sessionId", .string signal.sessionID), (ascii "from", .string signal.fromID)] ++
    textMember "to" signal.toID ++ [(ascii "createdAt", .number (integer signal.createdAt))] ++
    textMember "sdp" signal.sdp ++ candidate ++ textMember "encrypted" signal.encrypted))))

end Signal

def unmarshalSignal (F : Floats) (text : Bytes) : Option (Signal F) :=
  match parse maxNestingDepth text with
  | some (.object members) =>
    members.foldlM (fun signal member => signal.put member.1 member.2) (Signal.zero : Signal F)
  | some .null => some Signal.zero
  | _ => none

structure Readings where
  stamped : Time
  opening : Time
  now : Time

structure TorrentConfig (L : Libraries) where
  topic : Bytes
  peerID : Bytes
  token : Option (Token L)

structure TorrentSession (F : Floats) where
  offers : Bytes → Option (Signal F) := fun _ => none
  offerOrigins : Bytes → Option Bytes := fun _ => none
  seen : Bytes → Option Time := fun _ => none

/-- What `Publish` writes: an answer to the tracker its offer came from, or to all of them, or an
announcement to all. -/
inductive TorrentWrite where
  | answer (origin : Option Bytes) (offerID toID sdp : Bytes)
  | announce
  deriving DecidableEq

def originKey (offerID remote : Bytes) : Bytes := offerID ++ ascii ":" ++ remote

def trackerSignal (signal : Signal F) : Bytes :=
  if signal.encrypted = [] then signal.sdp
  else encryptedTrackerPrefix ++
    (Base64Url.encode (signal.marshalText.toOption.getD [])).map byteOf

def trackerIncoming (F : Floats) (cfg : TorrentConfig L) (value signalType sessionID fromID toID : Bytes)
    (now : Time) : Signal F :=
  if ¬ encryptedTrackerPrefix.isPrefixOf value then
    ⟨signalVersion, cfg.topic, signalType, sessionID, fromID, toID, now.unixMilli, value, none, []⟩
  else
    match (decodeEncrypted (value.drop encryptedTrackerPrefix.length)).bind (unmarshalSignal F) with
    | none => Signal.zero
    | some signal =>
      if signal.type ≠ signalType ∨ signal.sessionID ≠ sessionID ∨ signal.fromID ≠ fromID ∨
          signal.room ≠ cfg.topic ∨ (signal.toID ≠ [] ∧ signal.toID ≠ toID) then Signal.zero
      else signal

namespace TorrentSession

def publish (A : Aead) (cfg : TorrentConfig L) (s : TorrentSession F) (value : Signal F)
    (clock : Time) (random : Except String GcmNonce) :
    Except String (TorrentSession F × TorrentWrite) := do
  let signal ← prepareOutgoing A value cfg.topic cfg.peerID cfg.token clock random
  if signal.type = ascii "candidate" then
    .error "native BitTorrent signaling requires complete non-trickle SDP"
  else
    let key := originKey signal.sessionID signal.toID
    let s :=
      if signal.type = ascii "offer" then
        { s with offers := update s.offers signal.sessionID (some signal) }
      else if signal.type = ascii "bye" then
        { s with
          offers := update s.offers signal.sessionID none
          offerOrigins := update s.offerOrigins key none }
      else s
    -- No origin and an empty one are the same to Go.
    let origin := (s.offerOrigins key).filter (· ≠ [])
    .ok (s, if signal.type = ascii "answer" then
      .answer origin signal.sessionID signal.toID (trackerSignal signal) else .announce)

/-- The end of `receive`: what is opened and was not seen within five seconds is handed on. -/
def deliver (A : Aead) (cfg : TorrentConfig L) (s : TorrentSession F) (signal : Signal F)
    (clock : Readings) : TorrentSession F × Option (Signal F) :=
  match openIncoming A signal cfg.topic cfg.peerID cfg.token clock.opening with
  | none => (s, none)
  | some opened =>
    let key := opened.type ++ ascii ":" ++ opened.sessionID ++ ascii ":" ++ opened.fromID
    if (s.seen key).any fun seen => !seen.isZero && clock.now.sub seen < 5 * second then (s, none)
    else
      let seen := update s.seen key (some clock.now)
      ({ s with seen := fun id => (seen id).filter fun seen => clock.now.sub seen ≤ signalTTL },
        some opened)

def receive (A : Aead) (cfg : TorrentConfig L) (s : TorrentSession F) (url : Bytes)
    (value : Object F.Float) (clock : Readings) : TorrentSession F × Option (Signal F) :=
  let remote := textAt value.members "peer_id"
  let offerID := textAt value.members "offer_id"
  if remote = [] ∨ remote = cfg.peerID ∨ offerID = [] then (s, none)
  else
    match objectAt value.members "offer", objectAt value.members "answer" with
    | some offer, _ =>
      let sdp := textAt offer "sdp"
      if sdp = [] then (s, none)
      else
        let origins := update s.offerOrigins (originKey offerID remote) (some url)
        deliver A cfg { s with offerOrigins := origins }
          (trackerIncoming F cfg sdp (ascii "offer") offerID remote cfg.peerID clock.stamped)
          clock
    | none, some answer =>
      let sdp := textAt answer "sdp"
      let left := { s with offers := update s.offers offerID none }
      if (s.offers offerID).isNone ∨ sdp = [] then (left, none)
      else
        deliver A cfg left
          (trackerIncoming F cfg sdp (ascii "answer") offerID remote cfg.peerID clock.stamped)
          clock
    | none, none => (s, none)

def incoming (F : Floats) (cfg : TorrentConfig L) (value : Object F.Float) (stamped : Time) :
    Option (Signal F) :=
  let remote := textAt value.members "peer_id"
  let offerID := textAt value.members "offer_id"
  if remote = [] ∨ remote = cfg.peerID ∨ offerID = [] then none
  else
    match objectAt value.members "offer", objectAt value.members "answer" with
    | some offer, _ =>
      let sdp := textAt offer "sdp"
      if sdp = [] then none
      else some (trackerIncoming F cfg sdp (ascii "offer") offerID remote cfg.peerID stamped)
    | none, some answer =>
      let sdp := textAt answer "sdp"
      if sdp = [] then none
      else some (trackerIncoming F cfg sdp (ascii "answer") offerID remote cfg.peerID stamped)
    | none, none => none

/-- The signal in a message that passes every check on it; one without is refused. -/
def opens (A : Aead) (cfg : TorrentConfig L) (value : Object F.Float) (clock : Readings) :
    Option (Signal F) :=
  (incoming F cfg value clock.stamped).bind fun signal =>
    openIncoming A signal cfg.topic cfg.peerID cfg.token clock.opening

def Addressed (cfg : TorrentConfig L) (value : Object F.Float) : Prop :=
  textAt value.members "peer_id" ≠ [] ∧ textAt value.members "peer_id" ≠ cfg.peerID ∧
    textAt value.members "offer_id" ≠ []

def Offers (cfg : TorrentConfig L) (value : Object F.Float) : Prop :=
  Addressed cfg value ∧ ∃ offer, objectAt value.members "offer" = some offer ∧
    textAt offer "sdp" ≠ []

/-- The message has an answer, with a description or not, and no offer. -/
def Answers (cfg : TorrentConfig L) (value : Object F.Float) : Prop :=
  Addressed cfg value ∧ objectAt value.members "offer" = none ∧
    (objectAt value.members "answer").isSome

/-- An offer comes from the tracker that is recorded for it, and an answer is to no offer that is
announced. -/
structure Untouched (cfg : TorrentConfig L) (s : TorrentSession F) (url : Bytes)
    (value : Object F.Float) : Prop where
  origin : Offers cfg value →
    s.offerOrigins (originKey (textAt value.members "offer_id") (textAt value.members "peer_id")) =
      some url
  pending : Answers cfg value → s.offers (textAt value.members "offer_id") = none

section Receive
variable {cfg : TorrentConfig L} {s : TorrentSession F} {url : Bytes} {value : Object F.Float}
  {clock : Readings}

theorem deliver_keeps (signal : Signal F) :
    (deliver A cfg s signal clock).1.offers = s.offers ∧
      (deliver A cfg s signal clock).1.offerOrigins = s.offerOrigins := by
  rw [deliver]
  split
  · exact ⟨rfl, rfl⟩
  dsimp only
  split
  · exact ⟨rfl, rfl⟩
  · exact ⟨rfl, rfl⟩

theorem openIncoming_of_deliver {signal opened : Signal F}
    (h : (deliver A cfg s signal clock).2 = some opened) :
    openIncoming A signal cfg.topic cfg.peerID cfg.token clock.opening = some opened := by
  rw [deliver] at h
  split at h
  · cases h
  rename_i heq
  dsimp only at h
  split at h
  · cases h
  · cases h
    exact heq

theorem receive_cases (A : Aead) (cfg : TorrentConfig L) (s : TorrentSession F) (url : Bytes)
    (value : Object F.Float) (clock : Readings) :
    (¬ Offers cfg value ∧ ¬ Answers cfg value ∧ receive A cfg s url value clock = (s, none)) ∨
    (Offers cfg value ∧ ¬ Answers cfg value ∧ ∃ signal,
      incoming F cfg value clock.stamped = some signal ∧
      receive A cfg s url value clock = deliver A cfg { s with
        offerOrigins := update s.offerOrigins (originKey
          (textAt value.members "offer_id") (textAt value.members "peer_id")) (some url) }
        signal clock) ∨
    (Answers cfg value ∧ ¬ Offers cfg value ∧ ∃ left, left = { s with
        offers := update s.offers (textAt value.members "offer_id") none } ∧
      (receive A cfg s url value clock = (left, none) ∨ ∃ signal,
        incoming F cfg value clock.stamped = some signal ∧
        receive A cfg s url value clock = deliver A cfg left signal clock)) := by
  by_cases haddressed : Addressed cfg value
  · have hearly : ¬ (textAt value.members "peer_id" = [] ∨
        textAt value.members "peer_id" = cfg.peerID ∨ textAt value.members "offer_id" = []) := by
      rintro (hremote | hown | hoffer)
      · exact haddressed.1 hremote
      · exact haddressed.2.1 hown
      · exact haddressed.2.2 hoffer
    rw [receive, incoming, if_neg hearly, if_neg hearly]
    cases hoffer : objectAt value.members "offer" with
    | some offer =>
      have hanswers : ¬ Answers cfg value := by
        rintro ⟨-, hnone, -⟩
        rw [hoffer] at hnone
        cases hnone
      by_cases hsdp : textAt offer "sdp" = []
      · refine .inl ⟨?_, hanswers, if_pos hsdp⟩
        rintro ⟨-, other, hother, hne⟩
        rw [hoffer] at hother
        cases hother
        exact hne hsdp
      · exact .inr (.inl ⟨⟨haddressed, offer, hoffer, hsdp⟩, hanswers, _, if_neg hsdp,
          if_neg hsdp⟩)
    | none =>
      have hoffers : ¬ Offers cfg value := by
        rintro ⟨-, other, hother, -⟩
        rw [hoffer] at hother
        cases hother
      cases hanswer : objectAt value.members "answer" with
      | some answer =>
        refine .inr (.inr ⟨⟨haddressed, hoffer, by rw [hanswer]; rfl⟩, hoffers, _, rfl, ?_⟩)
        by_cases hsdp : (s.offers (textAt value.members "offer_id")).isNone ∨
            textAt answer "sdp" = []
        · exact .inl (if_pos hsdp)
        · exact .inr ⟨_, if_neg fun hempty => hsdp (.inr hempty), if_neg hsdp⟩
      | none =>
        refine .inl ⟨hoffers, ?_, rfl⟩
        rintro ⟨-, -, hsome⟩
        rw [hanswer] at hsome
        cases hsome
  · refine .inl ⟨fun h => haddressed h.1, fun h => haddressed h.1, ?_⟩
    rw [receive]
    apply if_pos
    by_contra hnot
    simp only [not_or] at hnot
    exact haddressed hnot

theorem opens_of_receive {opened : Signal F}
    (h : (receive A cfg s url value clock).2 = some opened) :
    opens A cfg value clock = some opened := by
  rcases receive_cases A cfg s url value clock with
    ⟨-, -, heq⟩ | ⟨-, -, signal, hincoming, heq⟩ | ⟨-, -, left, -, heq | ⟨signal, hincoming, heq⟩⟩
  · rw [heq] at h
    cases h
  · rw [heq] at h
    rw [opens, hincoming]
    exact openIncoming_of_deliver h
  · rw [heq] at h
    cases h
  · rw [heq] at h
    rw [opens, hincoming]
    exact openIncoming_of_deliver h

theorem receive_offers (h : ¬ Answers cfg value) :
    (receive A cfg s url value clock).1.offers = s.offers := by
  rcases receive_cases A cfg s url value clock with
    ⟨-, -, heq⟩ | ⟨-, -, signal, -, heq⟩ | ⟨hanswers, -⟩
  · rw [heq]
  · rw [heq, (deliver_keeps signal).1]
  · exact absurd hanswers h

theorem receive_offers_of_answers (h : Answers cfg value) :
    (receive A cfg s url value clock).1.offers =
      update s.offers (textAt value.members "offer_id") none := by
  rcases receive_cases A cfg s url value clock with
    ⟨-, hnot, -⟩ | ⟨-, hnot, -⟩ | ⟨-, -, left, rfl, heq | ⟨signal, -, heq⟩⟩
  · exact absurd h hnot
  · exact absurd h hnot
  · rw [heq]
  · rw [heq, (deliver_keeps signal).1]

theorem receive_offerOrigins (h : ¬ Offers cfg value) :
    (receive A cfg s url value clock).1.offerOrigins = s.offerOrigins := by
  rcases receive_cases A cfg s url value clock with
    ⟨-, -, heq⟩ | ⟨hoffers, -⟩ | ⟨-, -, left, rfl, heq | ⟨signal, -, heq⟩⟩
  · rw [heq]
  · exact absurd hoffers h
  · rw [heq]
  · rw [heq, (deliver_keeps signal).2]

theorem receive_offerOrigins_of_offers (h : Offers cfg value) :
    (receive A cfg s url value clock).1.offerOrigins = update s.offerOrigins
      (originKey (textAt value.members "offer_id") (textAt value.members "peer_id")) (some url) := by
  rcases receive_cases A cfg s url value clock with
    ⟨hnot, -⟩ | ⟨-, -, signal, -, heq⟩ | ⟨-, hnot, -⟩
  · exact absurd h hnot
  · rw [heq, (deliver_keeps signal).2]
  · exact absurd h hnot

theorem receive_unchanged_iff :
    (receive A cfg s url value clock).1.offers = s.offers ∧
        (receive A cfg s url value clock).1.offerOrigins = s.offerOrigins ↔
      Untouched cfg s url value := by
  constructor
  · rintro ⟨hoffers, horigins⟩
    constructor
    · intro h
      rw [receive_offerOrigins_of_offers h] at horigins
      exact (update_eq_self_iff.mp horigins).symm
    · intro h
      rw [receive_offers_of_answers h] at hoffers
      exact (update_eq_self_iff.mp hoffers).symm
  · intro h
    constructor
    · by_cases hanswers : Answers cfg value
      · rw [receive_offers_of_answers hanswers]
        exact update_eq_self_iff.mpr (h.pending hanswers).symm
      · exact receive_offers hanswers
    · by_cases hoffers : Offers cfg value
      · rw [receive_offerOrigins_of_offers hoffers]
        exact update_eq_self_iff.mpr (h.origin hoffers).symm
      · exact receive_offerOrigins hoffers

end Receive

end TorrentSession

end P2PNetcat.NativeWebRTC.Signaling
