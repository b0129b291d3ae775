import P2PNetcat.Library.JsonValue
import P2PNetcat.Protocol.Sealing

/-!
# Signals

What `prepareOutgoing` makes of a signal before it is published, and which
signals `openIncoming` takes. With a token the description and the candidate
travel sealed, and the rest of the signal is authenticated with them.
-/

namespace P2PNetcat.NativeWebRTC.Signaling
open List ByteCodec Fallible GoTime Json
open P2PNetcat.Pairing (Libraries Token Aead GcmNonce shown isNewline)
variable {peerID : Bytes} {now : Time} {A : Aead}

def signalVersion : Int := 2
def signalTTL : Int := 120 * second
def maxSDPBytes : Nat := 256 * 1024
def maxCandidateBytes : Nat := 64 * 1024
def maxEncryptedSignalBytes : Nat := 512 * 1024

def maxNestingDepth : Nat := 10000

structure Signal (F : Floats) where
  version : Int
  room : Bytes
  type : Bytes
  sessionID : Bytes
  fromID : Bytes
  toID : Bytes
  createdAt : Int
  sdp : Bytes
  candidate : Option (Object F.Float)
  encrypted : Bytes

/-- `clientIDPattern`: twenty ASCII letters or digits. -/
def isClientID (text : Bytes) : Bool :=
  text.length = 20 ∧ text.all fun b =>
    (48 ≤ b.toNat ∧ b.toNat ≤ 57) ∨ (65 ≤ b.toNat ∧ b.toNat ≤ 90) ∨ (97 ≤ b.toNat ∧ b.toNat ≤ 122)

variable {F : Floats}

def marshal (F : Floats) (value : Value F.Float) : Except String Bytes :=
  (toText F.format value).map fun text => Utf8.encode (render text)

def checkContent (signal : Signal F) : Except String Unit :=
  if signal.type = ascii "offer" ∨ signal.type = ascii "answer" then
    if signal.sdp = [] then
      .error ("native signaling " ++ shown signal.type ++ " does not contain SDP")
    else .ok ()
  else if signal.type = ascii "candidate" then
    if signal.candidate.isNone then .error "native signaling candidate is required"
    else .ok ()
  else if signal.type = ascii "bye" then .ok ()
  else .error ("unsupported native signaling type: " ++ shown signal.type)

def validateSignalPayloadSizes (signal : Signal F) : Except String Unit :=
  if signal.sdp.length > maxSDPBytes then
    .error ("native signaling SDP exceeds " ++ toString maxSDPBytes ++ " bytes")
  else
    match signal.candidate with
    | none => .ok ()
    | some candidate =>
      match marshal F candidate.tree with
      | .error err => .error ("encode native signaling candidate: " ++ err)
      | .ok encoded =>
        if encoded.length > maxCandidateBytes then
          .error ("native signaling candidate exceeds " ++ toString maxCandidateBytes ++ " bytes")
        else .ok ()

def signalAdditionalData (signal : Signal F) : Bytes :=
  Utf8.encode (render (.array [.number (integer signalVersion), .string signal.room,
    .string signal.type, .string signal.sessionID, .string signal.fromID, .string signal.toID,
    .number (integer signal.createdAt)]))

def candidateMember (candidate : Option (Object F.Float)) :
    Except String (List (Bytes × Value (List Char))) :=
  match candidate with
  | none => .ok []
  | some candidate =>
    if candidate.members.isEmpty then .ok []
    else (toText F.format candidate.tree).map fun text => [(ascii "candidate", text)]

def sdpMember (sdp : Bytes) : List (Bytes × Value (List Char)) :=
  if sdp = [] then [] else [(ascii "sdp", .string sdp)]

def marshalPayload (signal : Signal F) : Except String Bytes := do
  let candidate ← candidateMember signal.candidate
  .ok (Utf8.encode (render (.object (sdpMember signal.sdp ++ candidate))))

structure Payload (F : Floats) where
  sdp : Bytes := []
  candidate : Option (Object F.Float) := none

/-- Upper case counts as lower case in the names of fields, and so do the two characters beyond
ASCII that fold to a letter. -/
def foldRune (c : Char) : Char :=
  if 'A' ≤ c ∧ c ≤ 'Z' then c.toLower
  else if c.toNat = 0x17f then 's'
  else if c.toNat = 0x212a then 'k'
  else c

def isField (name : String) (key : Bytes) : Bool := (Utf8.lossy key).map foldRune = name.toList

namespace Payload

def putSdp (payload : Payload F) : Value (List Char) → Option (Payload F)
  | .string sdp => some { payload with sdp := sdp }
  | .null => some payload
  | _ => none

def putCandidate (payload : Payload F) : Value (List Char) → Option (Payload F)
  | .object members =>
    ((payload.candidate.getD .empty).merge F.parse members).map fun candidate =>
      { payload with candidate := some candidate }
  | .null => some { payload with candidate := none }
  | _ => none

def put (payload : Payload F) (key : Bytes) (value : Value (List Char)) : Option (Payload F) :=
  if isField "sdp" key then payload.putSdp value
  else if isField "candidate" key then payload.putCandidate value
  else some payload

end Payload

def unmarshalPayload (F : Floats) (plaintext : Bytes) : Option (Payload F) :=
  match parse maxNestingDepth plaintext with
  | some (.object members) =>
    members.foldlM (fun payload member => payload.put member.1 member.2) ({} : Payload F)
  | some .null => some {}
  | _ => none

variable {L : Libraries}

/-- `prepareOutgoing` at an instant, with what the random source returns for the nonce. -/
def prepareOutgoing (A : Aead) (signal : Signal F) (topic peerID : Bytes)
    (token : Option (Token L)) (clock : Time) (random : Except String GcmNonce) :
    Except String (Signal F) :=
  if ¬ isClientID peerID then
    .error "native signaling peerId must contain exactly 20 ASCII letters or digits"
  else do
    checkContent signal
    validateSignalPayloadSizes signal
    if signal.sessionID.length < 8 ∨ signal.sessionID.length > 128 then
      .error "native signaling sessionId is invalid"
    else if signal.toID ≠ [] ∧ ¬ isClientID signal.toID then
      .error "native signaling destination peerId is invalid"
    else
      let signal := { signal with
        version := signalVersion, room := topic, fromID := peerID, createdAt := clock.unixMilli }
      match token with
      | none => .ok signal
      | some token => do
        let metadata := { signal with sdp := [], candidate := none }
        let plaintext ← marshalPayload signal
        let envelope ←
          token.sealPayload A "signaling" plaintext (signalAdditionalData metadata) none random
        .ok { metadata with encrypted := (Base64Url.encode envelope).map byteOf }

/-- `DecodeString` of the standard library, which passes over line ends. -/
def decodeEncrypted (encrypted : Bytes) : Option Bytes :=
  Base64Url.decode true ((encrypted.map charOf).filter fun c => !isNewline c)

def openSealed (A : Aead) (signal : Signal F) (token : Token L) : Option (Payload F) :=
  if signal.encrypted = [] then none
  else do
    let metadata : Signal F := { signal with sdp := [], candidate := none }
    let envelope ← decodeEncrypted signal.encrypted
    let plaintext ←
      (token.openPayload A "signaling" envelope (signalAdditionalData metadata)).toOption
    unmarshalPayload F plaintext

/-- The checks of `openIncoming` after a sealed signal is opened. -/
def acceptIncoming (signal : Signal F) (topic peerID : Bytes) (now : Time) : Option (Signal F) :=
  if signal.version ≠ signalVersion ∨ signal.room ≠ topic ∨ signal.fromID = peerID then none
  else if signal.toID ≠ [] ∧ signal.toID ≠ peerID then none
  else if signal.sessionID = [] ∨ signal.fromID = [] ∨
      absDuration (now.sub (ofUnixMilli signal.createdAt)) > signalTTL then none
  else
    match checkContent signal with
    | .error _ => none
    | .ok _ =>
      match validateSignalPayloadSizes signal with
      | .error _ => none
      | .ok _ => some signal

def openIncoming (A : Aead) (signal : Signal F) (topic peerID : Bytes) (token : Option (Token L))
    (now : Time) : Option (Signal F) :=
  if signal.encrypted.length > maxEncryptedSignalBytes ∨
      signal.sessionID.length < 8 ∨ signal.sessionID.length > 128 ∨
      ¬ isClientID signal.fromID ∨ (signal.toID ≠ [] ∧ ¬ isClientID signal.toID) then none
  else
    match token with
    | none => acceptIncoming signal topic peerID now
    | some token => do
      let payload ← openSealed A signal token
      acceptIncoming { signal with sdp := payload.sdp, candidate := payload.candidate } topic peerID
        now

/-- What the receiver finds of the candidate: an empty map is not sealed. -/
def sealedCandidate (candidate : Option (Object F.Float)) : Option (Object F.Float) :=
  match candidate with
  | none => none
  | some candidate => if candidate.members.isEmpty then none else some candidate.reread

def payloadDepth (candidate : Option (Object F.Float)) : Nat :=
  match candidate with
  | none => 1
  | some candidate => if candidate.members.isEmpty then 1 else candidate.tree.depth + 1

theorem put_sdp (payload : Payload F) (sdp : Bytes) :
    payload.put (ascii "sdp") (.string sdp) = some { payload with sdp := sdp } :=
  if_pos rfl

theorem put_candidate {payload : Payload F} (hpayload : payload.candidate = none)
    {candidate : Object F.Float} {members : List (Bytes × Value (List Char))}
    (h : membersFromText F.parse members = some (rereadMembers candidate.members)) :
    payload.put (ascii "candidate") (.object members) =
      some { payload with candidate := some candidate.reread } := by
  rw [Payload.put, if_neg (by decide), if_pos (by decide), Payload.putCandidate]
  simp only [hpayload, Option.getD_none, Object.merge_empty h, Option.map_some]

theorem candidateMember_reads (hF : F.Lawful) {candidate : Option (Object F.Float)}
    {members : List (Bytes × Value (List Char))} (h : candidateMember candidate = .ok members) :
    AllMembers NumberLiteral members ∧ membersDepth members + 1 = payloadDepth candidate ∧
      ∀ sdp : Bytes, (coerceMembers members).foldlM
          (fun payload member => payload.put member.1 member.2) (⟨sdp, none⟩ : Payload F) =
        some ⟨sdp, sealedCandidate candidate⟩ := by
  cases candidate with
  | none =>
    cases h
    exact ⟨trivial, rfl, fun _ => rfl⟩
  | some candidate =>
    rw [candidateMember] at h
    rw [payloadDepth, sealedCandidate]
    split at h
    next hempty =>
      cases h
      rw [if_pos hempty, if_pos hempty]
      exact ⟨trivial, rfl, fun _ => rfl⟩
    next hempty =>
      rw [if_neg hempty, if_neg hempty]
      obtain ⟨text, htext, rfl⟩ := map_eq_ok.mp h
      obtain ⟨hliteral, hdepth, -⟩ := toText_reads hF candidate.tree htext
      obtain ⟨texts, htexts, rfl⟩ := map_eq_ok.mp htext
      obtain ⟨-, -, hread⟩ := membersToText_reads hF candidate.members htexts
      refine ⟨⟨hliteral, trivial⟩, ?_, ?_⟩
      · rw [membersDepth, membersDepth, Nat.max_zero, hdepth]
      · intro sdp
        have hkey : Utf8.coerce (ascii "candidate") = ascii "candidate" :=
          Utf8.coerce_of_valid (by decide)
        rw [coerceMembers, coerceMembers, hkey, Value.coerce, foldlM_cons,
          put_candidate rfl hread]
        rfl

variable {signal : Signal F}

/-- The sealed payload is read as the description and the candidate, with the wrong bytes in their
strings replaced, unless the candidate is nested too deeply. -/
theorem unmarshal_marshalPayload (hF : F.Lawful) {plaintext : Bytes}
    (h : marshalPayload signal = .ok plaintext) :
    unmarshalPayload F plaintext =
      if payloadDepth signal.candidate ≤ maxNestingDepth then
        some ⟨Utf8.coerce signal.sdp, sealedCandidate signal.candidate⟩
      else none := by
  obtain ⟨members, hmembers, h⟩ := bind_eq_ok.mp h
  cases h
  obtain ⟨hall, hdepth, hfold⟩ := candidateMember_reads hF hmembers
  have hliteral : (Value.object (sdpMember signal.sdp ++ members)).Literal := by
    refine ⟨trivial, ?_⟩
    rw [sdpMember]
    split
    · exact hall
    · exact ⟨trivial, hall⟩
  have hnesting : (Value.object (sdpMember signal.sdp ++ members)).depth =
      payloadDepth signal.candidate := by
    rw [← hdepth, Value.depth, sdpMember]
    split
    · rfl
    · rw [singleton_append, membersDepth, Value.depth, Nat.zero_max]
  have hput : (coerceMembers (sdpMember signal.sdp ++ members)).foldlM
      (fun payload member => payload.put member.1 member.2) ({} : Payload F) =
        some ⟨Utf8.coerce signal.sdp, sealedCandidate signal.candidate⟩ := by
    rw [sdpMember]
    split
    next hempty =>
      rw [hempty]
      exact hfold []
    · have hkey : Utf8.coerce (ascii "sdp") = ascii "sdp" := Utf8.coerce_of_valid (by decide)
      rw [singleton_append, coerceMembers, hkey, Value.coerce, foldlM_cons, put_sdp]
      exact hfold _
  rw [unmarshalPayload, parse_render hliteral, hnesting]
  by_cases hshallow : payloadDepth signal.candidate ≤ maxNestingDepth
  · rw [if_pos hshallow, if_pos hshallow, Value.coerce]
    exact hput
  · rw [if_neg hshallow, if_neg hshallow]

namespace Signal

def stamp (signal : Signal F) (topic peerID : Bytes) (clock : Time) : Signal F :=
  { signal with
    version := signalVersion, room := topic, fromID := peerID, createdAt := clock.unixMilli }

def withSealed (signal : Signal F) (envelope : Bytes) : Signal F :=
  { signal with sdp := [], candidate := none, encrypted := (Base64Url.encode envelope).map byteOf }

structure Sendable (signal : Signal F) (peerID : Bytes) : Prop where
  peerID : isClientID peerID = true
  content : checkContent signal = .ok ()
  sizes : validateSignalPayloadSizes signal = .ok ()
  sessionID : 8 ≤ signal.sessionID.length ∧ signal.sessionID.length ≤ 128
  toID : signal.toID = [] ∨ isClientID signal.toID = true

structure WellFormed (signal : Signal F) : Prop where
  encrypted : signal.encrypted.length ≤ maxEncryptedSignalBytes
  sessionID : 8 ≤ signal.sessionID.length ∧ signal.sessionID.length ≤ 128
  fromID : isClientID signal.fromID = true
  toID : signal.toID = [] ∨ isClientID signal.toID = true

structure Acceptable (signal : Signal F) (topic peerID : Bytes) (now : Time) : Prop where
  version : signal.version = signalVersion
  room : signal.room = topic
  other : signal.fromID ≠ peerID
  toID : signal.toID = [] ∨ signal.toID = peerID
  named : signal.sessionID ≠ [] ∧ signal.fromID ≠ []
  recent : absDuration (now.sub (ofUnixMilli signal.createdAt)) ≤ signalTTL
  content : checkContent signal = .ok ()
  sizes : validateSignalPayloadSizes signal = .ok ()

end Signal

variable {signal opened : Signal F} {topic : Bytes}

theorem acceptIncoming_some_iff :
    acceptIncoming signal topic peerID now = some opened ↔
      opened = signal ∧ signal.Acceptable topic peerID now := by
  constructor
  · intro h
    rw [acceptIncoming] at h
    split at h
    · cases h
    rename_i houter
    split at h
    · cases h
    rename_i hto
    split at h
    · cases h
    rename_i htime
    split at h
    · cases h
    rename_i hcontent
    split at h
    · cases h
    rename_i hsizes
    cases h
    simp only [not_or, not_and, ne_eq, not_not, gt_iff_lt, Int.not_lt] at houter hto htime
    refine ⟨rfl, houter.1, houter.2.1, houter.2.2, ?_, ⟨htime.1, htime.2.1⟩, htime.2.2, hcontent,
      hsizes⟩
    by_cases hempty : signal.toID = []
    · exact .inl hempty
    · exact .inr (hto hempty)
  · rintro ⟨rfl, h⟩
    have houter : ¬ (opened.version ≠ signalVersion ∨ opened.room ≠ topic ∨
        opened.fromID = peerID) := by
      rintro (hversion | hroom | hfrom)
      · exact hversion h.version
      · exact hroom h.room
      · exact h.other hfrom
    have hto : ¬ (opened.toID ≠ [] ∧ opened.toID ≠ peerID) := by
      rintro ⟨hempty, hpeer⟩
      exact h.toID.elim hempty hpeer
    have htime : ¬ (opened.sessionID = [] ∨ opened.fromID = [] ∨
        absDuration (now.sub (ofUnixMilli opened.createdAt)) > signalTTL) := by
      rintro (hsession | hfrom | hlate)
      · exact h.named.1 hsession
      · exact h.named.2 hfrom
      · exact absurd h.recent (Int.not_le.mpr hlate)
    rw [acceptIncoming, if_neg houter, if_neg hto, if_neg htime, h.content, h.sizes]

theorem wellFormed_iff : ¬ (signal.encrypted.length > maxEncryptedSignalBytes ∨
      signal.sessionID.length < 8 ∨ signal.sessionID.length > 128 ∨
      ¬ isClientID signal.fromID ∨ (signal.toID ≠ [] ∧ ¬ isClientID signal.toID)) ↔
    signal.WellFormed := by
  simp only [not_or, not_and, not_not, gt_iff_lt, Nat.not_lt]
  constructor
  · rintro ⟨hencrypted, hlow, hhigh, hfrom, hto⟩
    refine ⟨hencrypted, ⟨hlow, hhigh⟩, hfrom, ?_⟩
    by_cases hempty : signal.toID = []
    · exact .inl hempty
    · exact .inr (hto hempty)
  · intro h
    exact ⟨h.encrypted, h.sessionID.1, h.sessionID.2, h.fromID,
      fun hempty => h.toID.resolve_left hempty⟩

theorem openIncoming_plain_iff
    : openIncoming A signal topic peerID (none : Option (Token L)) now = some opened ↔
      signal.WellFormed ∧ opened = signal ∧ signal.Acceptable topic peerID now := by
  rw [← wellFormed_iff, ← acceptIncoming_some_iff, openIncoming]
  split
  next hbad =>
    exact ⟨fun h => (nomatch h), fun h => absurd hbad h.1⟩
  next hgood =>
    exact ⟨fun h => ⟨hgood, h⟩, fun h => h.2⟩

theorem openIncoming_some_iff {token : Token L} :
    openIncoming A signal topic peerID (some token) now = some opened ↔
      signal.WellFormed ∧ ∃ payload, openSealed A signal token = some payload ∧
        opened = { signal with sdp := payload.sdp, candidate := payload.candidate } ∧
        opened.Acceptable topic peerID now := by
  rw [← wellFormed_iff, openIncoming]
  split
  next hbad =>
    exact ⟨fun h => (nomatch h), fun h => absurd hbad h.1⟩
  rename_i hgood
  simp only [Option.bind_eq_bind, Option.bind_eq_some_iff, acceptIncoming_some_iff]
  constructor
  · rintro ⟨payload, hpayload, rfl, haccept⟩
    exact ⟨hgood, payload, hpayload, rfl, haccept⟩
  · rintro ⟨-, payload, hpayload, rfl, haccept⟩
    exact ⟨payload, hpayload, rfl, haccept⟩

theorem openSealed_some {token : Token L} {payload : Payload F}
    (h : openSealed A signal token = some payload) :
    ∃ nonce ciphertext plaintext,
      decodeEncrypted signal.encrypted = some (Pairing.sealedEnvelope nonce ciphertext) ∧
      nonce.length = Pairing.gcmNonceSize ∧
      A.openText token.signalingKey nonce ciphertext (signalAdditionalData signal) =
        some plaintext ∧
      unmarshalPayload F plaintext = some payload := by
  rw [openSealed] at h
  split at h
  · cases h
  simp only [Option.bind_eq_bind, Option.bind_eq_some_iff] at h
  obtain ⟨envelope, hdecoded, plaintext, hplaintext, hpayload⟩ := h
  cases hopened : token.openPayload A "signaling" envelope
      (signalAdditionalData { signal with sdp := [], candidate := none }) with
  | error err =>
    rw [hopened] at hplaintext
    cases hplaintext
  | ok opened =>
    rw [hopened] at hplaintext
    cases hplaintext
    obtain ⟨nonce, ciphertext, rfl, hnonce, hopen⟩ := Token.openPayload_ok hopened
    exact ⟨nonce, ciphertext, plaintext, hdecoded, hnonce, hopen, hpayload⟩

theorem prepareOutgoing_ok_iff {signal outgoing : Signal F}
    {token : Option (Token L)} {clock : Time} {random : Except String GcmNonce} :
    prepareOutgoing A signal topic peerID token clock random = .ok outgoing ↔
      signal.Sendable peerID ∧
        match token with
        | none => outgoing = signal.stamp topic peerID clock
        | some token => ∃ plaintext nonce, marshalPayload signal = .ok plaintext ∧
            random = .ok nonce ∧ outgoing = (signal.stamp topic peerID clock).withSealed
              (Pairing.sealedEnvelope nonce.val (A.sealText token.signalingKey nonce.val plaintext
                (signalAdditionalData (signal.stamp topic peerID clock)))) := by
  constructor
  · intro h
    obtain ⟨hpeer, h⟩ := ite_error_eq_ok.mp h
    simp only [bind_eq_ok, ite_error_eq_ok] at h
    obtain ⟨_, hcontent, _, hsizes, hsession, hto, h⟩ := h
    refine ⟨⟨not_not.mp hpeer, hcontent, hsizes, by omega, ?_⟩, ?_⟩
    · by_cases hempty : signal.toID = []
      · exact .inl hempty
      · exact .inr (not_not.mp fun hbad => hto ⟨hempty, hbad⟩)
    · cases token with
      | none => exact (Except.ok.inj h).symm
      | some token =>
        obtain ⟨plaintext, hplaintext, h⟩ := bind_eq_ok.mp h
        obtain ⟨envelope, henvelope, h⟩ := bind_eq_ok.mp h
        obtain ⟨nonce, hnonce, rfl⟩ := Token.sealPayload_ok_iff.mp henvelope
        exact ⟨plaintext, nonce, hplaintext, hnonce, (Except.ok.inj h).symm⟩
  · rintro ⟨hsend, h⟩
    have hsession : ¬ (signal.sessionID.length < 8 ∨ signal.sessionID.length > 128) := by
      have := hsend.sessionID
      omega
    have hto : ¬ (signal.toID ≠ [] ∧ ¬ isClientID signal.toID) := by
      rintro ⟨hempty, hbad⟩
      exact hbad (hsend.toID.resolve_left hempty)
    refine ite_error_eq_ok.mpr ⟨not_not.mpr hsend.peerID, ?_⟩
    refine bind_eq_ok.mpr ⟨(), hsend.content, bind_eq_ok.mpr ⟨(), hsend.sizes, ?_⟩⟩
    refine ite_error_eq_ok.mpr ⟨hsession, ite_error_eq_ok.mpr ⟨hto, ?_⟩⟩
    cases token with
    | none => exact congrArg Except.ok h.symm
    | some token =>
      obtain ⟨plaintext, nonce, hplaintext, hnonce, rfl⟩ := h
      exact bind_eq_ok.mpr ⟨plaintext, hplaintext, bind_eq_ok.mpr
        ⟨_, Token.sealPayload_ok_iff.mpr ⟨nonce, hnonce, rfl⟩, rfl⟩⟩

theorem prepareOutgoing_sealed (A : Aead) {plaintext : Bytes}
    (hsend : signal.Sendable peerID) (hplaintext : marshalPayload signal = .ok plaintext)
    (topic : Bytes) (token : Token L) (clock : Time) (nonce : GcmNonce) :
    prepareOutgoing A signal topic peerID (some token) clock (.ok nonce) =
      .ok ((signal.stamp topic peerID clock).withSealed (Pairing.sealedEnvelope nonce.val
        (A.sealText token.signalingKey nonce.val plaintext
          (signalAdditionalData (signal.stamp topic peerID clock))))) :=
  prepareOutgoing_ok_iff.mpr ⟨hsend, plaintext, nonce, hplaintext, rfl, rfl⟩

end P2PNetcat.NativeWebRTC.Signaling
