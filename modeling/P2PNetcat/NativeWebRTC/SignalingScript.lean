import P2PNetcat.Library.ScriptJson
import P2PNetcat.NativeWebRTC.SignalingDelivery

/-!
# Signals in JavaScript

What the browser package makes of a message before it is published, and on which
messages the data it authenticates are those that Go authenticates. Strings are
those without lone surrogates.
-/

namespace P2PNetcat.NativeWebRTC.Signaling
open List ByteCodec Fallible GoTime Json Script
open P2PNetcat.Pairing (Libraries Token Aead GcmNonce)
variable {text : List Char}

variable {F : Floats} {L : Libraries} {A : Aead}

/-- What a caller of `publish` gives; `none` is a value that is null or missing. -/
structure ScriptMessage (F : Floats) where
  type : List Char
  sessionId : Option (List Char)
  toId : Option (List Char)
  sdp : Option (List Char)
  candidate : Option (Object F.Float)

structure ScriptSignal (F : Floats) where
  version : Int
  room : List Char
  type : List Char
  sessionId : List Char
  fromId : List Char
  toId : Option (List Char)
  createdAt : Int
  sdp : Option (List Char)
  candidate : Option (Object F.Float)

def signalTypes : List (List Char) :=
  ["offer".toList, "answer".toList, "candidate".toList, "bye".toList]

def isPeerIdChar (c : Char) : Bool :=
  (48 ≤ c.toNat ∧ c.toNat ≤ 57) ∨ (65 ≤ c.toNat ∧ c.toNat ≤ 90) ∨ (97 ≤ c.toNat ∧ c.toNat ≤ 122)

def normalizeSignalingPeerId (value : Option (List Char)) : Except String (List Char) :=
  let peerId := trim (value.getD [])
  if peerId.length = 20 ∧ peerId.all isPeerIdChar then .ok peerId
  else .error "Native signaling peerId must contain exactly 20 alphanumeric characters"

def normalizeDestination (value : Option (List Char)) : Except String (Option (List Char)) :=
  if value.isNone then .ok none else (normalizeSignalingPeerId value).map some

def normalizeOutgoingSignal (message : ScriptMessage F) (topic peerId : List Char) (dateNow : Int) :
    Except String (ScriptSignal F) :=
  if message.type ∉ signalTypes then
    .error ("Unsupported native signaling message type: " ++ String.ofList message.type)
  else
    let sessionId := trim (message.sessionId.getD [])
    if Script.length sessionId < 8 ∨ Script.length sessionId > 128 then
      .error "Native signaling sessionId is invalid"
    else do
      let toId ← normalizeDestination message.toId
      let signal : ScriptSignal F :=
        ⟨signalVersion, topic, message.type, sessionId, peerId, toId, dateNow, none, none⟩
      if message.type = "offer".toList ∨ message.type = "answer".toList then
        if message.sdp.getD [] = [] then
          .error ("Native signaling " ++ String.ofList message.type ++ " must contain SDP")
        else .ok { signal with sdp := message.sdp }
      else if message.type = "candidate".toList then
        if message.candidate.isNone then .error "Native signaling candidate is missing"
        else .ok { signal with candidate := message.candidate }
      else .ok signal

namespace ScriptSignal

def metadata (signal : ScriptSignal F) : ScriptSignal F :=
  { signal with version := signalVersion, sdp := none, candidate := none }

def additionalData (signal : ScriptSignal F) : Bytes :=
  Utf8.encode (stringify [.number signalVersion, .string signal.room, .string signal.type,
    .string signal.sessionId, .string signal.fromId, .string (signal.toId.getD []),
    .number signal.createdAt])

end ScriptSignal

theorem metadata_of_normalize {message : ScriptMessage F} {topic peerId : List Char} {dateNow : Int}
    {signal : ScriptSignal F} (h : normalizeOutgoingSignal message topic peerId dateNow = .ok signal) :
    message.type ∈ signalTypes ∧ ∃ toId, normalizeDestination message.toId = .ok toId ∧
      signal.metadata = ⟨signalVersion, topic, message.type, trim (message.sessionId.getD []),
        peerId, toId, dateNow, none, none⟩ := by
  obtain ⟨htype, h⟩ := ite_error_eq_ok.mp h
  obtain ⟨-, h⟩ := ite_error_eq_ok.mp h
  obtain ⟨toId, hto, h⟩ := bind_eq_ok.mp h
  refine ⟨not_not.mp htype, toId, hto, ?_⟩
  split at h
  · obtain ⟨-, h⟩ := ite_error_eq_ok.mp h
    cases h
    rfl
  · split at h
    · obtain ⟨-, h⟩ := ite_error_eq_ok.mp h
      cases h
      rfl
    · cases h
      rfl

/-- One signal in both languages: the same strings, a session without white space around it and
one reading of the clock. -/
structure SameOutgoing (signal : Signal F) (topic peerID : Bytes) (clock : Time)
    (message : ScriptMessage F) (room peer : List Char) (dateNow : Int) : Prop where
  type : signal.type = Utf8.encode message.type
  sessionID : signal.sessionID = Utf8.encode (message.sessionId.getD [])
  trimmed : trim (message.sessionId.getD []) = message.sessionId.getD []
  toID : signal.toID = Utf8.encode (message.toId.getD [])
  topic : topic = Utf8.encode room
  peerID : peerID = Utf8.encode peer
  createdAt : clock.unixMilli = dateNow ∧ dateNow.natAbs ≤ maxSafeInteger

/-- The texts have none of the characters that Go writes as an escape and JavaScript does not. -/
def Unmarked (text : List Char) : Prop := ∀ c ∈ text, isMarkup c = false

theorem unmarked_of_peerIdChars (h : ∀ c ∈ text, isPeerIdChar c = true) :
    Unmarked text := by
  intro c hc
  have hrange := h c hc
  simp only [isPeerIdChar, decide_eq_true_eq] at hrange
  simp only [isMarkup, decide_eq_false_iff_not]
  rintro (rfl | rfl | rfl | hline | hline)
  · exact absurd hrange (by decide)
  · exact absurd hrange (by decide)
  · exact absurd hrange (by decide)
  · omega
  · omega

theorem trim_of_peerIdChars (h : ∀ c ∈ text, isPeerIdChar c = true) :
    trim text = text := by
  have hwhite : ∀ c ∈ text, isWhite c = false := by
    intro c hc
    have hrange := h c hc
    simp only [isPeerIdChar, decide_eq_true_eq] at hrange
    simp only [isWhite, Bool.or_eq_false_iff, Bool.and_eq_false_iff, decide_eq_false_iff_not,
      beq_eq_false_iff_ne]
    omega
  exact Trim.trimBy_eq_self (fun c hc => hwhite c (mem_of_head? hc))
    fun c hc => hwhite c (mem_of_getLast? hc)

theorem peerIdChars_of_clientID (h : isClientID (Utf8.encode text) = true) :
    ∀ c ∈ text, isPeerIdChar c = true := by
  simp only [isClientID, decide_eq_true_eq, all_eq_true] at h
  have hascii : ∀ b ∈ Utf8.encode text, b.toNat < 0x80 := by
    intro b hb
    have := h.2 b hb
    omega
  have htext : text = (Utf8.encode text).map charOf := by
    have hdecode := Utf8.decode_of_ascii hascii
    rw [Utf8.decode_encode] at hdecode
    exact Option.some.inj hdecode
  intro c hc
  rw [htext] at hc
  obtain ⟨b, hb, rfl⟩ := mem_map.mp hc
  have hrange := h.2 b hb
  have hchar : (charOf b).toNat = b.toNat := Utf8.toNat_ofNat (.inl (by omega))
  simp only [isPeerIdChar, hchar, decide_eq_true_eq]
  exact hrange

theorem peerIdChars_of_type {type : List Char} (h : type ∈ signalTypes) :
    ∀ c ∈ type, isPeerIdChar c = true := by
  have hall : signalTypes.all (fun type => type.all isPeerIdChar) = true := by decide
  exact all_eq_true.mp (all_eq_true.mp hall type h)

def authenticated (room type sessionId peer toId : List Char) (createdAt : Int) : List Primitive :=
  [.number signalVersion, .string room, .string type, .string sessionId, .string peer,
    .string toId, .number createdAt]

theorem encode_injective {other : List Char} (h : Utf8.encode text = Utf8.encode other) :
    text = other := by
  have hdecode := congrArg Utf8.decode h
  rw [Utf8.decode_encode, Utf8.decode_encode] at hdecode
  exact Option.some.inj hdecode

theorem toId_of_normalize {value toId : Option (List Char)}
    (htrim : trim (value.getD []) = value.getD []) (h : normalizeDestination value = .ok toId) :
    toId.getD [] = value.getD [] := by
  rw [normalizeDestination] at h
  split at h
  next hnone =>
    obtain rfl := Option.isNone_iff_eq_none.mp hnone
    cases h
    rfl
  · rw [normalizeSignalingPeerId, htrim] at h
    split at h
    · cases h
      rfl
    · cases h

theorem additionalData_outgoing {signal outgoing : Signal F} {topic peerID : Bytes}
    {token : Option (Token L)} {clock : Time} {random : Except String GcmNonce}
    (h : prepareOutgoing A signal topic peerID token clock random = .ok outgoing) :
    signalAdditionalData outgoing = signalAdditionalData (signal.stamp topic peerID clock) := by
  obtain ⟨-, hout⟩ := prepareOutgoing_ok_iff.mp h
  cases token with
  | none =>
    obtain rfl : outgoing = signal.stamp topic peerID clock := hout
    rfl
  | some token =>
    obtain ⟨plaintext, nonce, -, -, rfl⟩ := hout
    rfl

/-- The two languages authenticate the same bytes exactly if neither the room nor the session has
a character that Go escapes for HTML. -/
theorem additional_data_agrees_iff {signal outgoing : Signal F} {topic peerID : Bytes}
    {token : Option (Token L)} {clock : Time} {random : Except String GcmNonce}
    {message : ScriptMessage F} {room peer : List Char} {dateNow : Int}
    {scriptSignal : ScriptSignal F}
    (hsame : SameOutgoing signal topic peerID clock message room peer dateNow)
    (hgo : prepareOutgoing A signal topic peerID token clock random = .ok outgoing)
    (hscript : normalizeOutgoingSignal message room peer dateNow = .ok scriptSignal) :
    signalAdditionalData outgoing = scriptSignal.metadata.additionalData ↔
      Unmarked room ∧ Unmarked (message.sessionId.getD []) := by
  obtain ⟨htype, toId, hto, hmetadata⟩ := metadata_of_normalize hscript
  have hsendable := (prepareOutgoing_ok_iff.mp hgo).1
  have hpeer : ∀ c ∈ peer, isPeerIdChar c = true :=
    peerIdChars_of_clientID (hsame.peerID ▸ hsendable.peerID)
  have hdestination : ∀ c ∈ message.toId.getD [], isPeerIdChar c = true := by
    rcases hsendable.toID with hnone | hid
    · rw [hsame.toID] at hnone
      have hnil : message.toId.getD [] = [] := encode_injective hnone
      rw [hnil]
      exact fun c hc => absurd hc not_mem_nil
    · exact peerIdChars_of_clientID (hsame.toID ▸ hid)
  have htoId := toId_of_normalize (trim_of_peerIdChars hdestination) hto
  have hgoData : signalAdditionalData outgoing = Utf8.encode (render (.array
      ((authenticated room message.type (message.sessionId.getD []) peer (message.toId.getD [])
        dateNow).map Primitive.value))) := by
    rw [additionalData_outgoing hgo]
    simp only [signalAdditionalData, Signal.stamp, hsame.topic, hsame.type, hsame.sessionID,
      hsame.peerID, hsame.toID, hsame.createdAt.1]
    rfl
  have hscriptData : scriptSignal.metadata.additionalData = Utf8.encode (stringify
      (authenticated room message.type (message.sessionId.getD []) peer (message.toId.getD [])
        dateNow)) := by
    rw [hmetadata, ScriptSignal.additionalData]
    simp only [hsame.trimmed, htoId]
    rfl
  rw [hgoData, hscriptData]
  constructor
  · intro heq
    have hall := render_eq_stringify_iff.mp (encode_injective heq)
    exact ⟨hall (.string room) (by simp [authenticated]),
      hall (.string (message.sessionId.getD [])) (by simp [authenticated])⟩
  · rintro ⟨hroom, hsession⟩
    apply congrArg Utf8.encode
    apply render_eq_stringify_iff.mpr
    simp only [authenticated, forall_mem_cons]
    exact ⟨trivial, hroom, unmarked_of_peerIdChars (peerIdChars_of_type htype), hsession,
      unmarked_of_peerIdChars hpeer, unmarked_of_peerIdChars hdestination, trivial,
      forall_mem_nil _⟩

def offerMessage (sessionId : List Char) : ScriptMessage plainFloats :=
  ⟨"offer".toList, some sessionId, none, some "v=0".toList, none⟩

def offerSignal (sessionId : List Char) : Signal plainFloats :=
  { plainSignal (ascii "offer") (ascii "v=0") none with sessionID := Utf8.encode sessionId }

def plainPeer : List Char := "0123456789AbCdEfGhIj".toList

theorem additional_data_agrees_iff_example :
    ∃ outgoing scriptSignal,
      prepareOutgoing plainAead (offerSignal "session é 1".toList) (ascii "room") plainSender
        (none : Option (Token Pairing.plainLibraries)) (unix 1800000000) (.ok plainNonce) =
          .ok outgoing ∧
      normalizeOutgoingSignal (offerMessage "session é 1".toList) "room".toList plainPeer
        1800000000000 = .ok scriptSignal ∧
      signalAdditionalData outgoing = scriptSignal.metadata.additionalData := by
  have hsame : SameOutgoing (offerSignal "session é 1".toList) (ascii "room") plainSender
      (unix 1800000000) (offerMessage "session é 1".toList) "room".toList plainPeer
      1800000000000 :=
    ⟨by decide, rfl, by decide, by decide, by decide, by decide, by decide⟩
  have hroom : ("room".toList.all fun c => isMarkup c = false) = true := by decide
  have hsession : ("session é 1".toList.all fun c => isMarkup c = false) = true := by decide
  have hgo : prepareOutgoing plainAead (offerSignal "session é 1".toList) (ascii "room") plainSender
      (none : Option (Token Pairing.plainLibraries)) (unix 1800000000) (.ok plainNonce) =
      .ok ((offerSignal "session é 1".toList).stamp (ascii "room") plainSender
        (unix 1800000000)) := rfl
  refine ⟨_, _, hgo, rfl, (additional_data_agrees_iff hsame hgo rfl).mpr ⟨?_, ?_⟩⟩
  · intro c hc
    exact of_decide_eq_true (all_eq_true.mp hroom c hc)
  · intro c hc
    exact of_decide_eq_true (all_eq_true.mp hsession c hc)

theorem bracket_authenticated_differently :
    ∃ outgoing scriptSignal,
      prepareOutgoing plainAead (offerSignal "session<1".toList) (ascii "room") plainSender
        (none : Option (Token Pairing.plainLibraries)) (unix 1800000000) (.ok plainNonce) =
          .ok outgoing ∧
      normalizeOutgoingSignal (offerMessage "session<1".toList) "room".toList plainPeer
        1800000000000 = .ok scriptSignal ∧
      signalAdditionalData outgoing ≠ scriptSignal.metadata.additionalData :=
  ⟨_, _, rfl, rfl, by decide +kernel⟩

end P2PNetcat.NativeWebRTC.Signaling
